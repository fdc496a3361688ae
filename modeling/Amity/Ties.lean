/-
  Amity/Ties.lean
  ===============
  **One player's side of the friendship graph.**  The ties of a player are three lists: the
  friends, the players asked, and the players who asked.  Each list keeps the order in which its
  entries came.  A friendship is recorded on both sides; a request is among the sender's sent and
  the receiver's received.
-/
import Amity.Name

namespace Amity

/-- The friends of a player and the requests of and to that player. -/
structure Ties where
  friends : List Name
  sent : List Name
  received : List Name
  deriving DecidableEq, Repr

namespace Ties

def empty : Ties := ⟨[], [], []⟩

instance : Inhabited Ties := ⟨empty⟩

def isEmpty (t : Ties) : Bool :=
  t.friends.isEmpty && t.sent.isEmpty && t.received.isEmpty

def firstOccurrences : List Name → List Name
  | [] => []
  | n :: ns => n :: (firstOccurrences ns).filter (· ≠ n)

/-- Every player these ties point at, each once. -/
def peers (t : Ties) : List Name :=
  firstOccurrences (t.friends ++ t.sent ++ t.received)

def mapLists (f : List Name → List Name) (t : Ties) : Ties :=
  ⟨f t.friends, f t.sent, f t.received⟩

def without (n : Name) (ns : List Name) : List Name :=
  ns.filter (· ≠ n)

/-- Puts `new` in the place of `old`. -/
def substitute (old new : Name) (n : Name) : Name :=
  if n = old then new else n

/-- The ties after `old` has become `new`: each entry changes in its place. -/
def renamePeer (old new : Name) (t : Ties) : Ties :=
  t.mapLists (List.map (substitute old new))

def forgetPeer (n : Name) (t : Ties) : Ties :=
  t.mapLists (without n)

/-- Makes a player a friend: no request between the two is left, and a friend stays where it is. -/
def befriend (n : Name) (t : Ties) : Ties :=
  { friends := if n ∈ t.friends then t.friends else t.friends ++ [n]
    sent := without n t.sent
    received := without n t.received }

def unfriend (n : Name) (t : Ties) : Ties :=
  { t with friends := without n t.friends }

def addSent (n : Name) (t : Ties) : Ties :=
  { t with sent := t.sent ++ [n] }

def addReceived (n : Name) (t : Ties) : Ties :=
  { t with received := t.received ++ [n] }

def dropSent (n : Name) (t : Ties) : Ties :=
  { t with sent := without n t.sent }

def dropReceived (n : Name) (t : Ties) : Ties :=
  { t with received := without n t.received }

@[simp] theorem mem_without {m n : Name} {ns : List Name} :
    m ∈ without n ns ↔ m ∈ ns ∧ m ≠ n := by
  simp [without]

@[simp] theorem mem_firstOccurrences {n : Name} {ns : List Name} :
    n ∈ firstOccurrences ns ↔ n ∈ ns := by
  induction ns with
  | nil => simp [firstOccurrences]
  | cons m ms ih =>
    by_cases h : n = m <;> simp [firstOccurrences, h, ih]

theorem mem_peers {n : Name} {t : Ties} :
    n ∈ t.peers ↔ n ∈ t.friends ∨ n ∈ t.sent ∨ n ∈ t.received := by
  simp [peers]

theorem nodup_firstOccurrences (ns : List Name) : (firstOccurrences ns).Nodup := by
  induction ns with
  | nil => exact List.nodup_nil
  | cons n ns ih =>
    refine List.nodup_cons.2 ⟨by simp, ?_⟩
    exact ih.sublist List.filter_sublist

theorem isEmpty_iff {t : Ties} : t.isEmpty = true ↔ t = empty := by
  cases t
  simp [isEmpty, empty, and_assoc]

/-! ### Ties in JSON -/

def toJson (t : Ties) : Json :=
  Json.ofFields [("friends", Name.listToJson t.friends), ("sent", Name.listToJson t.sent),
    ("received", Name.listToJson t.received)]

def ofJson? (v : Json) : Option Ties :=
  match v.fields? ["friends", "sent", "received"] with
  | some [some friends, some sent, some received] => do
    return ⟨← Name.listOfJson? friends, ← Name.listOfJson? sent, ← Name.listOfJson? received⟩
  | _ => none

def encode (t : Ties) : String := t.toJson.write

def decode? (s : String) : Option Ties := (Json.scan? s).bind ofJson?

end Ties

end Amity
