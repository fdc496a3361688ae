/-
  Amity/Name.lean
  ===============
  **Player names.**  A name has at least one and fewer than 64 characters, all of them
  alphanumeric or one of `.`, `-` and `_`.  A name carries the proof of that, so whoever holds a
  `Name` need not ask again; `Name.parse?` is the only way in.
-/
import Amity.Text.Alphanumeric
import Amity.Json.Fields

namespace Amity

namespace Name

/-- Names are shorter than this many characters. -/
def lengthLimit : Nat := 64

/-- Whether a character may occur in a name. -/
def allows (c : Char) : Bool :=
  Text.isAlphanumeric c || c = '.' || c = '-' || c = '_'

def isValid (s : String) : Bool :=
  !s.toList.isEmpty && s.toList.length < lengthLimit && s.toList.all allows

end Name

/-- A valid player name. -/
structure Name where
  text : String
  valid : Name.isValid text = true
  deriving DecidableEq

namespace Name

instance : Repr Name := ⟨fun n prec => reprPrec n.text prec⟩

def parse? (s : String) : Option Name :=
  if h : isValid s = true then some ⟨s, h⟩ else none

@[simp] theorem parse?_text (n : Name) : parse? n.text = some n := by
  simp [parse?, n.valid]

theorem text_of_parse? {s : String} {n : Name} (h : parse? s = some n) : n.text = s := by
  unfold parse? at h
  split at h
  · cases h; rfl
  · cases h

theorem parse?_eq_none_iff {s : String} : parse? s = none ↔ isValid s = false := by
  unfold parse?
  split <;> simp_all

theorem ext_text {m n : Name} (h : m.text = n.text) : m = n := by
  cases m; cases n; simp_all

/-! ### Names in JSON -/

def toJson (n : Name) : Json := Json.ofText n.text

def ofJson? (v : Json) : Option Name := v.text?.bind parse?

/-- A list of names is written as the array of their texts. -/
def listToJson (ns : List Name) : Json := .array (ns.map toJson)

/-- A list of names is read from an array of names. -/
def listOfJson? (v : Json) : Option (List Name) :=
  v.items?.bind fun items => items.mapM ofJson?

@[simp] theorem ofJson?_toJson (n : Name) : ofJson? n.toJson = some n := by
  simp [ofJson?, toJson]

end Name

end Amity
