/-
  Amity/Settings/Address.lean
  ===========================
  **Network addresses.**  An address of version 4 is four numbers below 256 between points, without
  leading zeros.  One of version 6 is eight groups of up to four hexadecimal digits between colons;
  the last two groups may be written as an address of version 4, and one run of zero groups may be
  left out, which leaves two colons.

  It is printed in lower case without leading zeros, and the longest run of two or more zero groups
  is left out, the first one of equally long runs.  An address of version 4 inside version 6 is
  printed as such.
-/

namespace Amity.Settings

/-- A network address. -/
inductive Address where
  | v4 (a b c d : Nat)
  | v6 (groups : List Nat)
  deriving DecidableEq, Repr

namespace Address

/-! ## Reading -/

def hexValue? (c : Char) : Option Nat :=
  if c.isDigit then some (c.toNat - 48)
  else if 'a' ≤ c ∧ c ≤ 'f' then some (c.toNat - 87)
  else if 'A' ≤ c ∧ c ≤ 'F' then some (c.toNat - 55)
  else none

/-- A part of an address of version 4. -/
def octet? (cs : List Char) : Option Nat :=
  if cs.isEmpty || 3 < cs.length || !cs.all Char.isDigit then none
  else if 1 < cs.length && cs.head? = some '0' then none
  else (some (cs.foldl (fun n c => 10 * n + (c.toNat - 48)) 0)).filter (· < 256)

def octets? (cs : List Char) : Option (Nat × Nat × Nat × Nat) :=
  match (cs.splitOn '.').mapM octet? with
  | some [a, b, c, d] => some (a, b, c, d)
  | _ => none

/-- A group of an address of version 6. -/
def group? (cs : List Char) : Option Nat :=
  if cs.isEmpty || 4 < cs.length then none
  else (cs.mapM hexValue?).map (·.foldl (fun n d => 16 * n + d) 0)

/-- Groups, the last of which may be an address of version 4 and then counts as two. -/
def groups? : List (List Char) → Option (List Nat)
  | [] => some []
  | [cs] =>
    match octets? cs with
    | some (a, b, c, d) => some [256 * a + b, 256 * c + d]
    | none => (group? cs).map ([·])
  | cs :: rest => do return (← group? cs) :: (← groups? rest)

/-- The groups of a text between single colons; the empty text has none. -/
def groupsOfText? (cs : List Char) : Option (List Nat) :=
  if cs.isEmpty then some [] else groups? (cs.splitOn ':')

/-- What a text has before and after the first two colons in a row. -/
def splitGap : List Char → Option (List Char × List Char)
  | [] => none
  | ':' :: ':' :: rest => some ([], rest)
  | c :: cs => (splitGap cs).map fun (before, after) => (c :: before, after)

def v6? (cs : List Char) : Option Address :=
  match splitGap cs with
  | none => do
    let groups ← groups? (cs.splitOn ':')
    if groups.length = 8 then return .v6 groups else none
  | some (before, after) => do
    if before.any (· = '.') then none
    else
      let front ← groupsOfText? before
      let back ← groupsOfText? after
      if front.length + back.length < 8 then
        return .v6 (front ++ List.replicate (8 - (front.length + back.length)) 0 ++ back)
      else none

def parse? (s : String) : Option Address :=
  match octets? s.toList with
  | some (a, b, c, d) => some (.v4 a b c d)
  | none => v6? s.toList

/-! ## Printing -/

def v4Text (a b c d : Nat) : String :=
  String.intercalate "." ([a, b, c, d].map fun n => String.ofList (Nat.toDigits 10 n))

def groupsText (groups : List Nat) : String :=
  String.intercalate ":" (groups.map fun g => String.ofList (Nat.toDigits 16 g))

/-- How many zero groups the list starts with. -/
def zerosAhead (groups : List Nat) : Nat := (groups.takeWhile (· = 0)).length

/-- Where the longest run of zero groups starts, and its length; the first of equally long ones. -/
def longestZeros : Nat → List Nat → Nat × Nat
  | _, [] => (0, 0)
  | i, g :: gs =>
    let here := zerosAhead (g :: gs)
    let later := longestZeros (i + 1) gs
    if here ≠ 0 ∧ later.2 ≤ here then (i, here) else later

def v6Text (groups : List Nat) : String :=
  match groups with
  | [0, 0, 0, 0, 0, 0xFFFF, x, y] =>
    "::ffff:" ++ v4Text (x / 256) (x % 256) (y / 256) (y % 256)
  | _ =>
    let (start, length) := longestZeros 0 groups
    if 1 < length then
      groupsText (groups.take start) ++ "::" ++ groupsText (groups.drop (start + length))
    else groupsText groups

def text : Address → String
  | .v4 a b c d => v4Text a b c d
  | .v6 groups => v6Text groups

def withPort (a : Address) (port : Nat) : String :=
  let host := match a with
    | .v4 .. => a.text
    | .v6 _ => "[" ++ a.text ++ "]"
  host ++ ":" ++ String.ofList (Nat.toDigits 10 port)

end Address

end Amity.Settings
