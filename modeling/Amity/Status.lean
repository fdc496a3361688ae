/-
  Amity/Status.lean
  =================
  **What friends see of a player.**  A session is connected or in a game; a player nobody hears from
  is disconnected.  The order connected, disconnected, in-game is the one friends are listed in, and
  a player with several sessions shows the last of their statuses in that order.
-/
import Amity.Json.Fields

namespace Amity

/-- What a player shows to friends. -/
inductive Status where
  | connected
  | disconnected
  | inGame
  deriving DecidableEq, Repr

namespace Status

instance : Inhabited Status := ⟨.disconnected⟩

def rank : Status → Nat
  | .connected => 0
  | .disconnected => 1
  | .inGame => 2

/-- The later of two statuses in the listing order. -/
def later (s t : Status) : Status :=
  if s.rank < t.rank then t else s

/-- The status shown for the given sessions: the last of theirs, disconnected without any. -/
def ofSessions : List Status → Status
  | [] => .disconnected
  | s :: ss => ss.foldl later s

/-! ### Statuses in JSON -/

def word : Status → String
  | .connected => "connected"
  | .disconnected => "disconnected"
  | .inGame => "in-game"

/-- The status a word stands for; an older word for a game is understood too. -/
def ofWord? : String → Option Status
  | "connected" => some .connected
  | "disconnected" => some .disconnected
  | "in-game" => some .inGame
  | "in game" => some .inGame
  | _ => none

@[simp] theorem ofWord?_word (s : Status) : ofWord? s.word = some s := by
  cases s <;> rfl

def toJson (s : Status) : Json := Json.ofText s.word

/-- A status is read from its word, or from an object whose only member is that word with null. -/
def ofJson? : Json → Option Status
  | .string l => l.text?.bind ofWord?
  | .object [(k, .null)] => k.text?.bind ofWord?
  | _ => none

@[simp] theorem ofJson?_toJson (s : Status) : ofJson? s.toJson = some s := by
  show (Json.ofText s.word).text?.bind ofWord? = some s
  simp

end Status

end Amity
