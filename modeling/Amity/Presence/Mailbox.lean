/-
  Amity/Presence/Mailbox.lean
  ===========================
  **Notices and where they wait.**  Sessions learn about each other through notices.  A notice
  waits in the mailbox of the connection it is for until that connection reads it.  A mailbox
  holds only so many: a post to a full mailbox fails, and so does one to a mailbox that nobody
  reads any more.
-/
import Amity.Name
import Amity.Status

namespace Amity

/-- A connection, numbered in the order of arrival. -/
structure Connection where
  number : Nat
  deriving DecidableEq, Repr

/-- What one session tells another. -/
inductive Notice where
  /-- The ties have changed; the status of the named player falls back to disconnected. -/
  | update (reset : Option Name)
  /-- A friend shows this status now. -/
  | status (friend : Name) (status : Status)
  /-- The asker shows this status, and wants to be told the reader's at this connection. -/
  | probe (asker : Name) (status : Status) (replyTo : Connection)
  | renamed (old new : Name)
  deriving DecidableEq, Repr

/-- Notices with the players they are for. -/
abbrev Outbox := List (Name × Notice)

structure Mailbox where
  capacity : Nat
  items : List Notice
  isOpen : Bool
  /-- Whether the connection has been told to end. -/
  cancelled : Bool
  deriving DecidableEq, Repr

namespace Mailbox

def fresh (capacity : Nat) : Mailbox := ⟨capacity, [], true, false⟩

def post? (b : Mailbox) (x : Notice) : Option Mailbox :=
  if b.isOpen ∧ b.items.length < b.capacity then some { b with items := b.items ++ [x] } else none

def emptied (b : Mailbox) : Mailbox := { b with items := [] }

/-- The mailbox after its reader has gone; what was in it is gone too. -/
def closed (b : Mailbox) : Mailbox := { b with items := [], isOpen := false }

def cancel (b : Mailbox) : Mailbox := { b with cancelled := true }

theorem post?_eq_some_iff {b b' : Mailbox} {x : Notice} :
    b.post? x = some b' ↔
      (b.isOpen = true ∧ b.items.length < b.capacity) ∧
        b' = { b with items := b.items ++ [x] } := by
  unfold post?
  split
  · rename_i h
    exact ⟨fun e => ⟨h, (Option.some.inj e).symm⟩, fun e => by rw [e.2]⟩
  · rename_i h
    exact ⟨(nomatch ·), fun e => absurd e.1 h⟩

end Mailbox

end Amity
