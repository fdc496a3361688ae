/-
  Amity/Presence.lean
  ===================
  **Who is here.**  A player may be attached through several sessions; together they are the group
  of the player's name, in the order they came.  Each connection also has an owner entry, the name
  it stands under; the entry outlives the place in the group and goes only when the connection is
  detached.

  Notices are addressed to names.  An outbox is first resolved to the connections of the groups,
  then the notices are posted in order, and only then the sessions whose mailbox refused one are
  dropped from every group and cancelled.
-/
import Amity.Table
import Amity.Presence.Mailbox

namespace Amity

/-- A session in the group of its player, with the status it shows. -/
structure Attachment where
  connection : Connection
  status : Status
  deriving DecidableEq, Repr

/-- The groups of attached sessions, the owner of each connection, and the mailboxes. -/
structure Presence where
  groups : Table Name (List Attachment)
  owners : Table Connection Name
  boxes : Table Connection Mailbox
  arrivals : Nat
  /-- How many notices mailboxes have refused. -/
  refusals : Nat

namespace Presence

def empty : Presence := ⟨.empty, .empty, .empty, 0, 0⟩

/-! ## Questions -/

/-- The sessions of a player, in the order they came. -/
def group (p : Presence) (n : Name) : List Attachment := (p.groups.find? n).getD []

def sessionsOf (p : Presence) (n : Name) : List Connection := (p.group n).map (·.connection)

def isOnline (p : Presence) (n : Name) : Bool := p.groups.contains n

def statusOf (p : Presence) (n : Name) : Status := Status.ofSessions ((p.group n).map (·.status))

def count (p : Presence) : Nat := (p.groups.entries.flatMap fun e => e.2).length

def isAttached (p : Presence) (n : Name) (c : Connection) : Bool :=
  (p.group n).any fun a => a.connection = c

/-- The name a connection is attached under. -/
def nameOf? (p : Presence) (c : Connection) : Option Name :=
  (p.owners.find? c).filter fun n => p.isAttached n c

/-! ## Connections -/

/-- A new connection with a mailbox of this capacity. -/
def accept (p : Presence) (capacity : Nat) : Connection × Presence :=
  let c : Connection := ⟨p.arrivals⟩
  (c, { p with boxes := p.boxes.insert c (.fresh capacity), arrivals := p.arrivals + 1 })

def withoutConnections (cs : List Connection) (as : List Attachment) : List Attachment :=
  as.filter fun a => a.connection ∉ cs

/-- Sets the group of a name; an empty group is no group. -/
def setGroup (p : Presence) (n : Name) (as : List Attachment) : Presence :=
  { p with groups := if as.isEmpty then p.groups.erase n else p.groups.insert n as }

/-- Attaches a connection to a player, as the last of the group and with status connected. -/
def attach (p : Presence) (n : Name) (c : Connection) : Presence :=
  let rest := withoutConnections [c] (p.group n)
  { p.setGroup n (rest ++ [⟨c, .connected⟩]) with owners := p.owners.insert c n }

/-- Forgets a connection, whatever name it stands under; gives that name. -/
def detach (p : Presence) (c : Connection) : Option Name × Presence :=
  match p.owners.find? c with
  | none => (none, p)
  | some n =>
    (some n,
      { p.setGroup n (withoutConnections [c] (p.group n)) with owners := p.owners.erase c })

/-- Gives the first place of a connection in a group this status. -/
def showStatus (c : Connection) (s : Status) : List Attachment → List Attachment
  | [] => []
  | a :: as => if a.connection = c then ⟨c, s⟩ :: as else a :: showStatus c s as

def setStatus (p : Presence) (c : Connection) (s : Status) : Presence :=
  match p.owners.find? c with
  | none => p
  | some n => { p with groups := p.groups.modify n (showStatus c s) }

/-! ## Mailboxes -/

def waiting (p : Presence) (c : Connection) : List Notice :=
  match p.boxes.find? c with
  | some b => b.items
  | none => []

def isCancelled (p : Presence) (c : Connection) : Bool :=
  match p.boxes.find? c with
  | some b => b.cancelled
  | none => false

/-- Whether somebody reads the mailbox of the connection. -/
def isOpen (p : Presence) (c : Connection) : Bool :=
  match p.boxes.find? c with
  | some b => b.isOpen
  | none => false

def editBox (p : Presence) (c : Connection) (f : Mailbox → Mailbox) : Presence :=
  { p with boxes := p.boxes.modify c f }

/-- The oldest notice that waits for a connection, taken out. -/
def takeNotice (p : Presence) (c : Connection) : Option (Notice × Presence) :=
  match p.waiting c with
  | [] => none
  | x :: xs => some (x, p.editBox c fun b => { b with items := xs })

def drain (p : Presence) (c : Connection) : List Notice × Presence :=
  (p.waiting c, p.editBox c Mailbox.emptied)

def close (p : Presence) (c : Connection) : Presence := p.editBox c Mailbox.closed

def cancelAll (cs : List Connection) (p : Presence) : Presence :=
  cs.foldl (fun p c => p.editBox c Mailbox.cancel) p

/-! ## Delivery -/

/-- Posts one notice; tells whether the mailbox took it. -/
def post (p : Presence) (c : Connection) (x : Notice) : Bool × Presence :=
  match (p.boxes.find? c).bind (·.post? x) with
  | some b => (true, { p with boxes := p.boxes.insert c b })
  | none => (false, p)

/-- The connections that the notices of an outbox are for, in order. -/
def resolve (p : Presence) (outbox : Outbox) : List (Connection × Notice) :=
  outbox.flatMap fun (n, x) => (p.group n).map fun a => (a.connection, x)

/-- Posts the notices in order: how many were taken, and which connections refused one. -/
def postAll : List (Connection × Notice) → Presence → Nat × List Connection × Presence
  | [], p => (0, [], p)
  | (c, x) :: rest, p =>
    let (taken, p) := p.post c x
    let (delivered, failed, p) := postAll rest p
    if taken then (delivered + 1, failed, p) else (delivered, c :: failed, p)

/-- Removes sessions from every group and tells them to end; their owner entries stay. -/
def dropSessions (p : Presence) (cs : List Connection) : Presence :=
  let groups := p.groups.filterMap fun _ as =>
    let kept := withoutConnections cs as
    if kept.isEmpty then none else some kept
  cancelAll cs { p with groups }

/-- Posts the notices and drops the sessions that refused one; how many were taken. -/
def deliver (p : Presence) (targets : List (Connection × Notice)) : Nat × Presence :=
  let (delivered, failed, p) := postAll targets p
  let p := { p with refusals := p.refusals + failed.length }
  (delivered, if failed.isEmpty then p else p.dropSessions failed)

def notifyAll (p : Presence) (outbox : Outbox) : Nat × Presence := p.deliver (p.resolve outbox)

def notify (p : Presence) (n : Name) (x : Notice) : Nat × Presence := p.notifyAll [(n, x)]

/-- Delivers a notice to every session of a player but one. -/
def notifyOthers (p : Presence) (n : Name) (skip : Connection) (x : Notice) : Nat × Presence :=
  p.deliver ((withoutConnections [skip] (p.group n)).map fun a => (a.connection, x))

/-- Delivers a notice to one session of a player; tells whether it was taken. -/
def sendTo (p : Presence) (n : Name) (c : Connection) (x : Notice) : Bool × Presence :=
  if p.isAttached n c then
    let (delivered, p) := p.deliver [(c, x)]
    (delivered = 1, p)
  else (false, p)

/-! ## Changes of a whole group -/

/-- Moves every session of `old` under `new`, behind those already there, and the owner entries
    with them; then delivers the outbox.  Gives the number of sessions moved. -/
def rebind (p : Presence) (old new : Name) (outbox : Outbox) : Nat × Presence :=
  let moved := p.group old
  let left := { p with groups := p.groups.erase old }
  let joined := if moved.isEmpty then left else left.setGroup new (left.group new ++ moved)
  let owners := p.owners.filterMap fun _ n => some (if n = old then new else n)
  (moved.length, ({ joined with owners }.notifyAll outbox).2)

/-- Removes and cancels every session of a player; then delivers the outbox.  Gives the number of
    sessions removed. -/
def evict (p : Presence) (n : Name) (outbox : Outbox) : Nat × Presence :=
  let gone := p.sessionsOf n
  let left := cancelAll gone { p with groups := p.groups.erase n }
  (gone.length, (left.notifyAll outbox).2)

/-- Makes a change that depends on a commit: when the commit fails, nothing happens. -/
def afterCommit {ε : Type} (p : Presence) (commit : Except ε Outbox)
    (change : Presence → Outbox → Nat × Presence) : Except ε Nat × Presence :=
  match commit with
  | .error e => (.error e, p)
  | .ok outbox =>
    let (count, p) := change p outbox
    (.ok count, p)

end Presence

end Amity
