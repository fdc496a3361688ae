/-
  Amity/Message.lean
  ==================
  **What a client is told.**  A snapshot shows the player's friends with their statuses and the
  pending requests; an event says that a player took another name.  Nothing in the text says which
  of the two a message is: a reader tries the snapshot first and the event second.

  An event carries its kind in the member `event`, anywhere in the object, or as the first item of
  an array.  Where a message may be either, the kind may also be given by its number.
-/
import Amity.Name
import Amity.Status

namespace Amity

/-! ## Snapshots -/

/-- What a player's client shows. -/
structure Snapshot where
  friends : List (Name × Status)
  sent : List Name
  received : List Name
  deriving DecidableEq, Repr

namespace Snapshot

def statusOf? (s : Snapshot) (n : Name) : Option Status :=
  s.friends.lookup n

def friendToJson (f : Name × Status) : Json :=
  .array [f.1.toJson, f.2.toJson]

def friendOfJson? : Json → Option (Name × Status)
  | .array [name, status] => do return (← Name.ofJson? name, ← Status.ofJson? status)
  | _ => none

def toJson (s : Snapshot) : Json :=
  Json.ofFields [("friends_list", .array (s.friends.map friendToJson)),
    ("friends_request_send", Name.listToJson s.sent),
    ("friends_request_received", Name.listToJson s.received)]

/-- The snapshot of a record with all three lists. -/
def ofJson? (v : Json) : Option Snapshot :=
  match v.fields? ["friends_list", "friends_request_send", "friends_request_received"] with
  | some [some friends, some sent, some received] => do
    let friends ← friends.items?
    return ⟨← friends.mapM friendOfJson?, ← Name.listOfJson? sent, ← Name.listOfJson? received⟩
  | _ => none

def encode (s : Snapshot) : String := s.toJson.write

def decode? (s : String) : Option Snapshot := (Json.scan? s).bind ofJson?

end Snapshot

/-! ## Events -/

/-- Something that happened to a player a client knows. -/
inductive Event where
  | renamed (old new : Name)
  deriving DecidableEq, Repr

namespace Event

def kindKey : String := "event"

def renamedKind : String := "renamed"

/-- Whether a value says that the event is a renaming. -/
def isRenamedKind (numbered : Bool) : Json → Bool
  | .string l => l = .text renamedKind
  | .number x => numbered && x = Numeral.ofNat 0
  | _ => false

def ofFields? (v : Json) : Option Event :=
  match v.fields? ["from", "to"] with
  | some [some old, some new] => do return .renamed (← Name.ofJson? old) (← Name.ofJson? new)
  | _ => none

/-- The event of an object or an array; `numbered` says whether a number may give the kind. -/
def ofJson? (numbered : Bool) : Json → Option Event
  | .object members =>
    let (kinds, fields) := members.partition fun m => m.1 = .text kindKey
    match kinds with
    | [(_, kind)] => if isRenamedKind numbered kind then ofFields? (.object fields) else none
    | _ => none
  | .array (kind :: fields) =>
    if isRenamedKind numbered kind then ofFields? (.array fields) else none
  | _ => none

def toJson : Event → Json
  | .renamed old new =>
    Json.ofFields [(kindKey, Json.ofText renamedKind), ("from", old.toJson), ("to", new.toJson)]

def encode (e : Event) : String := e.toJson.write

def decode? (s : String) : Option Event := (Json.read? s).bind (ofJson? false)

end Event

/-! ## Messages -/

/-- A message to a client. -/
inductive Message where
  | snapshot (s : Snapshot)
  | event (e : Event)
  deriving DecidableEq, Repr

namespace Message

def toJson : Message → Json
  | .snapshot s => s.toJson
  | .event e => e.toJson

/-- A message is read as a snapshot if it is one, else as an event. -/
def ofJson? (v : Json) : Option Message :=
  match Snapshot.ofJson? v with
  | some s => some (.snapshot s)
  | none => (Event.ofJson? true v).map .event

def encode (m : Message) : String := m.toJson.write

def decode? (s : String) : Option Message := (Json.read? s).bind ofJson?

end Message

end Amity
