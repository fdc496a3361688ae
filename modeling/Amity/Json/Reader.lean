/-
  Amity/Json/Reader.lean
  ======================
  **Reading JSON text.**  The reader takes the text of a value from the front of a list of
  characters and gives the value with the characters that follow it.

  * Blanks are the space, the tab, the line feed and the carriage return, and nothing else.
  * A numeral has no leading zero, and a digit on each side of a point and behind an exponent mark.
  * A literal has no raw character below U+0020.  Its `\u` escapes are read as code units first;
    then a high and a low half of a surrogate pair that stand next to each other are joined.

  `scan?` reads a whole text and checks its grammar only.  `read?` also asks that the value is plain
  and no deeper than 127 arrays and objects; it is for texts of which every part matters.
-/
import Amity.Json.Basic

namespace Amity.Json

/-! ## Blanks -/

/-- Whether blanks may hold this character. -/
def isBlank (c : Char) : Bool :=
  c = ' ' || c = '\t' || c = '\n' || c = '\r'

def skipBlanks (cs : List Char) : List Char :=
  cs.dropWhile isBlank

/-! ## Numerals -/

def digit? (c : Char) : Option (Fin 10) :=
  if '0' ≤ c ∧ c ≤ '9' then some (Fin.ofNat 10 (c.toNat - 48)) else none

/-- The leading digits, and the characters after them. -/
def spanDigits : List Char → List (Fin 10) × List Char
  | [] => ([], [])
  | c :: cs =>
    match digit? c with
    | none => ([], c :: cs)
    | some d =>
      let (ds, rest) := spanDigits cs
      (d :: ds, rest)

/-- The whole part of a numeral: a zero alone, or digits that do not start with a zero. -/
def readWhole (cs : List Char) : Option (Nat × List Char) :=
  match spanDigits cs with
  | ([], _) => none
  | (0 :: _ :: _, _) => none
  | (ds, rest) => some (Numeral.ofDigits ds, rest)

/-- The point and the digits behind it, if there is a point. -/
def readFraction : List Char → Option (List (Fin 10) × List Char)
  | '.' :: cs =>
    match spanDigits cs with
    | ([], _) => none
    | (ds, rest) => some (ds, rest)
  | cs => some ([], cs)

/-- The digits of an exponent, and the exponent they make. -/
def readMagnitude (sign : Int) (cs : List Char) : Option (Option Int × List Char) :=
  match spanDigits cs with
  | ([], _) => none
  | (ds, rest) => some (some (sign * Numeral.ofDigits ds), rest)

def readExponent : List Char → Option (Option Int × List Char)
  | c :: cs =>
    if c = 'e' ∨ c = 'E' then
      match cs with
      | '+' :: cs => readMagnitude 1 cs
      | '-' :: cs => readMagnitude (-1) cs
      | cs => readMagnitude 1 cs
    else some (none, c :: cs)
  | [] => some (none, [])

def readSign : List Char → Bool × List Char
  | '-' :: cs => (true, cs)
  | cs => (false, cs)

def readNumeral (cs : List Char) : Option (Numeral × List Char) := do
  let (negative, cs) := readSign cs
  let (whole, cs) ← readWhole cs
  let (fraction, cs) ← readFraction cs
  let (exponent, cs) ← readExponent cs
  return (⟨negative, whole, fraction, exponent⟩, cs)

/-! ## Literals -/

def hexValue? (c : Char) : Option Nat :=
  if '0' ≤ c ∧ c ≤ '9' then some (c.toNat - 48)
  else if 'a' ≤ c ∧ c ≤ 'f' then some (c.toNat - 87)
  else if 'A' ≤ c ∧ c ≤ 'F' then some (c.toNat - 55)
  else none

/-- The code unit with the given four hexadecimal digits. -/
def codeUnit? (a b c d : Char) : Option Nat := do
  return 4096 * (← hexValue? a) + 256 * (← hexValue? b) + 16 * (← hexValue? c) + (← hexValue? d)

/-- The character that a one-letter escape stands for. -/
def shortEscape? : Char → Option Char
  | '"' => some '"'
  | '\\' => some '\\'
  | '/' => some '/'
  | 'b' => some '\x08'
  | 'f' => some '\x0c'
  | 'n' => some '\n'
  | 'r' => some '\r'
  | 't' => some '\t'
  | _ => none

/-- The code units up to the closing quote, and the characters behind it. -/
def readUnits : List Char → Option (List Nat × List Char)
  | [] => none
  | '"' :: cs => some ([], cs)
  | '\\' :: 'u' :: a :: b :: c :: d :: cs => do
    let u ← codeUnit? a b c d
    let (us, rest) ← readUnits cs
    return (u :: us, rest)
  | '\\' :: e :: cs => do
    let c ← shortEscape? e
    let (us, rest) ← readUnits cs
    return (c.toNat :: us, rest)
  | c :: cs =>
    if c.toNat < 0x20 then none
    else do
      let (us, rest) ← readUnits cs
      return (c.toNat :: us, rest)

def isHighHalf (u : Nat) : Bool := 0xD800 ≤ u && u ≤ 0xDBFF

def isLowHalf (u : Nat) : Bool := 0xDC00 ≤ u && u ≤ 0xDFFF

/-- The characters of the code units, when every half of a pair has its other half behind it. -/
def joinUnits : List Nat → Option (List Char)
  | [] => some []
  | [u] => if isHighHalf u || isLowHalf u then none else some [Char.ofNat u]
  | u :: v :: us =>
    if isHighHalf u then
      if isLowHalf v then
        (joinUnits us).map (Char.ofNat (0x10000 + 1024 * (u - 0xD800) + (v - 0xDC00)) :: ·)
      else none
    else if isLowHalf u then none
    else (joinUnits (v :: us)).map (Char.ofNat u :: ·)

def literalOfUnits (us : List Nat) : Literal :=
  match joinUnits us with
  | some cs => .text (String.ofList cs)
  | none => .unpaired

/-- The rest of a literal behind its opening quote. -/
def readLiteral (cs : List Char) : Option (Literal × List Char) :=
  (readUnits cs).map fun (us, rest) => (literalOfUnits us, rest)

def readKey (cs : List Char) : Option (Literal × List Char) :=
  match skipBlanks cs with
  | '"' :: cs => do
    let (k, cs) ← readLiteral cs
    match skipBlanks cs with
    | ':' :: cs => return (k, cs)
    | _ => none
  | _ => none

/-! ## Values -/

mutual

/-- A value at the front of the text, behind blanks. -/
def readValue : Nat → List Char → Option (Json × List Char)
  | 0, _ => none
  | fuel + 1, cs =>
    match skipBlanks cs with
    | 'n' :: 'u' :: 'l' :: 'l' :: cs => some (.null, cs)
    | 't' :: 'r' :: 'u' :: 'e' :: cs => some (.bool true, cs)
    | 'f' :: 'a' :: 'l' :: 's' :: 'e' :: cs => some (.bool false, cs)
    | '"' :: cs => (readLiteral cs).map fun (l, rest) => (.string l, rest)
    | '[' :: cs =>
      match skipBlanks cs with
      | ']' :: cs => some (.array [], cs)
      | cs => (readItems fuel cs).map fun (vs, rest) => (.array vs, rest)
    | '\x7b' :: cs =>
      match skipBlanks cs with
      | '\x7d' :: cs => some (.object [], cs)
      | cs => (readMembers fuel cs).map fun (ms, rest) => (.object ms, rest)
    | cs => (readNumeral cs).map fun (x, rest) => (.number x, rest)

def readItems : Nat → List Char → Option (List Json × List Char)
  | 0, _ => none
  | fuel + 1, cs => do
    let (v, cs) ← readValue fuel cs
    match skipBlanks cs with
    | ',' :: cs =>
      let (vs, cs) ← readItems fuel cs
      return (v :: vs, cs)
    | ']' :: cs => return ([v], cs)
    | _ => none

def readMembers : Nat → List Char → Option (List (Literal × Json) × List Char)
  | 0, _ => none
  | fuel + 1, cs => do
    let (k, cs) ← readKey cs
    let (v, cs) ← readValue fuel cs
    match skipBlanks cs with
    | ',' :: cs =>
      let (ms, cs) ← readMembers fuel cs
      return ((k, v) :: ms, cs)
    | '\x7d' :: cs => return ([(k, v)], cs)
    | _ => none

end

/-- A value at the front of the text; two steps for each character are enough. -/
def readFront (cs : List Char) : Option (Json × List Char) :=
  readValue (2 * cs.length + 1) cs

/-! ## Whole texts -/

/-- How many arrays and objects may lie inside each other. -/
def maxDepth : Nat := 127

/-- The value of a text that follows the grammar from end to end. -/
def scan? (s : String) : Option Json :=
  match readFront s.toList with
  | some (v, rest) => if (skipBlanks rest).isEmpty then some v else none
  | none => none

/-- The value of a text, which also is plain and not too deep. -/
def read? (s : String) : Option Json :=
  (scan? s).filter fun v => v.isPlain && v.depth ≤ maxDepth

end Amity.Json
