/-
  Amity/Json/Writer.lean
  ======================
  **Writing JSON text.**  Values are written without spaces, members in their order.  In a string
  the quote, the backslash and the characters below U+0020 are escaped, five of them by a letter and
  the others by four lower-case hexadecimal digits; every other character stands for itself.
-/
import Amity.Json.Basic

namespace Amity.Json

/-! ## Literals -/

/-- The hexadecimal digit of a number below sixteen, in lower case. -/
def hexDigit (n : Nat) : Char :=
  if n < 10 then Char.ofNat (48 + n) else Char.ofNat (87 + n)

/-- How one character is written inside a string literal. -/
def writeChar (c : Char) : List Char :=
  if c = '"' then ['\\', '"']
  else if c = '\\' then ['\\', '\\']
  else if c = '\x08' then ['\\', 'b']
  else if c = '\x0c' then ['\\', 'f']
  else if c = '\n' then ['\\', 'n']
  else if c = '\r' then ['\\', 'r']
  else if c = '\t' then ['\\', 't']
  else if c.toNat < 0x20 then
    ['\\', 'u', '0', '0', hexDigit (c.toNat / 16), hexDigit (c.toNat % 16)]
  else [c]

def writeText (s : String) : List Char :=
  '"' :: (s.toList.flatMap writeChar ++ ['"'])

/-- A string literal; half of a surrogate pair can only be escaped. -/
def writeLiteral : Literal → List Char
  | .text s => writeText s
  | .unpaired => ['"', '\\', 'u', 'd', '8', '0', '0', '"']

/-! ## Numerals -/

def writeNat (n : Nat) : List Char :=
  Nat.toDigits 10 n

/-- A numeral: sign, whole part, point and digits, exponent. -/
def writeNumeral (x : Numeral) : List Char :=
  let sign := if x.negative then ['-'] else []
  let fraction := if x.fraction.isEmpty then [] else '.' :: x.fraction.map fun d => hexDigit d.val
  let exponent := match x.exponent with
    | none => []
    | some e => 'e' :: ((if e < 0 then ['-'] else []) ++ writeNat e.natAbs)
  sign ++ (writeNat x.whole ++ (fraction ++ exponent))

/-! ## Values -/

mutual

def writeChars : Json → List Char
  | .null => ['n', 'u', 'l', 'l']
  | .bool true => ['t', 'r', 'u', 'e']
  | .bool false => ['f', 'a', 'l', 's', 'e']
  | .number x => writeNumeral x
  | .string l => writeLiteral l
  | .array [] => ['[', ']']
  | .array (v :: vs) => '[' :: (writeChars v ++ writeItems vs)
  | .object [] => ['\x7b', '\x7d']
  | .object ((k, v) :: ms) =>
    '\x7b' :: (writeLiteral k ++ (':' :: (writeChars v ++ writeMembers ms)))

/-- The items after the first, each behind a comma, and the closing bracket. -/
def writeItems : List Json → List Char
  | [] => [']']
  | v :: vs => ',' :: (writeChars v ++ writeItems vs)

/-- The members after the first, each behind a comma, and the closing brace. -/
def writeMembers : List (Literal × Json) → List Char
  | [] => ['\x7d']
  | (k, v) :: ms => ',' :: (writeLiteral k ++ (':' :: (writeChars v ++ writeMembers ms)))

end

def write (v : Json) : String :=
  String.ofList (writeChars v)

end Amity.Json
