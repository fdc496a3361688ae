/-
  Amity/Settings/Number.lean
  ==========================
  **Numbers in settings.**  A number is written with decimal digits, as many leading zeros as one
  likes, and an optional plus sign.  Where numbers may be negative by nature, a minus sign is
  understood too; a minus zero is zero.
-/

namespace Amity.Settings

/-- The number with these digits; at least one is needed. -/
def digitsToNat? (cs : List Char) : Option Nat :=
  if cs.isEmpty || !cs.all Char.isDigit then none
  else some (cs.foldl (fun n c => 10 * n + (c.toNat - 48)) 0)

/-- A number without a minus sign, below the limit. -/
def unsigned? (limit : Nat) (s : String) : Option Nat :=
  let digits := match s.toList with
    | '+' :: cs => cs
    | cs => cs
  (digitsToNat? digits).filter (· < limit)

/-- A number with either sign that is neither below zero nor at the limit. -/
def signed? (limit : Nat) (s : String) : Option Nat :=
  match s.toList with
  | '-' :: cs => (digitsToNat? cs).filter (· = 0)
  | _ => unsigned? limit s

end Amity.Settings
