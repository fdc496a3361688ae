/-
  Amity/Text/CodeSet.lean
  =======================
  **Sets of code points.**  A property of characters is a set of code points, and the sets that
  matter here are unions of a few hundred intervals.  Such a set is written as the increasing list
  of the points where membership changes: below the first point nothing is a member, from the first
  to just before the second everything is, and so on in turn.
-/

namespace Amity.Text

/-- A set of code points, as the increasing list of points where membership changes. -/
structure CodeSet where
  changes : List Nat

namespace CodeSet

/-- Membership after reading the changes in turn: each change at or below `n` turns it over. -/
def isInside : List Nat → Nat → Bool
  | [], _ => false
  | p :: ps, n => if n < p then false else !isInside ps n

def contains (s : CodeSet) (c : Char) : Bool :=
  isInside s.changes c.toNat

end CodeSet

end Amity.Text
