/-
  Amity/Json/Basic.lean
  =====================
  **JSON values as they are written.**  Records are stored and messages are sent as JSON texts.  A
  value keeps what a reader of records has to see: members of an object in order and with
  repetitions, and string literals whose escapes leave half of a surrogate pair, which stand for no
  text at all.  Such a literal is allowed where nobody looks at it, so it is a value of its own.

  * `Json.depth` counts the arrays and objects that lie around the innermost value;
  * `Json.isPlain` says that every literal is a text and every numeral is in range.
-/
import Amity.Json.Numeral

namespace Amity

/-- A string literal: the text it stands for, or a literal with an unpaired surrogate. -/
inductive Literal where
  | text (s : String)
  | unpaired
  deriving DecidableEq, Repr

/-- The text a literal stands for. -/
def Literal.text? : Literal → Option String
  | .text s => some s
  | .unpaired => none

/-- A JSON value. -/
inductive Json where
  | null
  | bool (b : Bool)
  | number (x : Numeral)
  | string (l : Literal)
  | array (items : List Json)
  | object (members : List (Literal × Json))
  deriving Repr

namespace Json

def ofText (s : String) : Json := .string (.text s)

def text? : Json → Option String
  | .string l => l.text?
  | _ => none

def items? : Json → Option (List Json)
  | .array items => some items
  | _ => none

@[simp] theorem text?_ofText (s : String) : (ofText s).text? = some s := rfl

/-! ## Depth -/

mutual

/-- How many arrays and objects enclose the innermost value, itself counted. -/
def depth : Json → Nat
  | .array items => depthOfItems items + 1
  | .object members => depthOfMembers members + 1
  | _ => 0

def depthOfItems : List Json → Nat
  | [] => 0
  | v :: vs => max (depth v) (depthOfItems vs)

def depthOfMembers : List (Literal × Json) → Nat
  | [] => 0
  | (_, v) :: ms => max (depth v) (depthOfMembers ms)

end

/-! ## Plain values -/

mutual

/-- Every literal is a text, every numeral is in range. -/
def isPlain : Json → Bool
  | .number x => !x.outOfRange
  | .string l => l.text?.isSome
  | .array items => arePlain items
  | .object members => arePlainMembers members
  | _ => true

def arePlain : List Json → Bool
  | [] => true
  | v :: vs => isPlain v && arePlain vs

def arePlainMembers : List (Literal × Json) → Bool
  | [] => true
  | (k, v) :: ms => k.text?.isSome && isPlain v && arePlainMembers ms

end

end Json

end Amity
