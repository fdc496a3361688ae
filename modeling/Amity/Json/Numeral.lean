/-
  Amity/Json/Numeral.lean
  =======================
  **Numbers of a JSON text.**  A numeral keeps what was written: sign, whole part, the digits after
  the point and the exponent.  No record here holds a number, so a numeral never becomes one; but a
  text is refused when a numeral in it is beyond the double-precision range.

  ## The range

  The digits that fit 64 bits, read as one integer, are rounded to a double and multiplied by the
  power of ten that the point, the exponent and the dropped digits of the whole part leave over,
  itself rounded; the numeral is out of range when that product rounds to infinity, or when the
  power of ten alone is above the largest double.  A numeral whose digits are all zero is always in
  range, and so is every numeral that is too small.
-/

namespace Amity

/-- A number as it is written. -/
structure Numeral where
  negative : Bool
  /-- The part before the point. -/
  whole : Nat
  /-- The digits after the point; none when there is no point. -/
  fraction : List (Fin 10)
  exponent : Option Int
  deriving DecidableEq, Repr

namespace Numeral

/-- The natural number with the given decimal digits. -/
def ofDigits (ds : List (Fin 10)) : Nat :=
  ds.foldl (fun n d => 10 * n + d.val) 0

def ofNat (n : Nat) : Numeral := ⟨false, n, [], none⟩

/-! ## Digits that fit a machine word -/

def wordSize : Nat := Nat.pow 2 64

/-- Drops the last digits of `n` until it fits a word; also the number of digits dropped. -/
def trimWhole (n : Nat) : Nat × Nat :=
  if n < wordSize then (n, 0)
  else
    let (kept, dropped) := trimWhole (n / 10)
    (kept, dropped + 1)
  termination_by n
  decreasing_by
    rename_i h
    have : 0 < n := Nat.lt_of_lt_of_le (by decide) (Nat.le_of_not_lt h)
    exact Nat.div_lt_self this (by decide)

/-- Appends digits to `n` as long as the result fits a word; also the number of digits appended. -/
def appendFraction (n : Nat) : List (Fin 10) → Nat × Nat
  | [] => (n, 0)
  | d :: ds =>
    if 10 * n + d.val < wordSize then
      let (kept, used) := appendFraction (10 * n + d.val) ds
      (kept, used + 1)
    else (n, 0)

/-! ## The double-precision range -/

/-- `n` rounded to 53 significant bits, a tie going to the even neighbour. -/
def nearestDouble (n : Nat) : Nat :=
  let step := Nat.pow 2 (n.log2 - 52)
  let q := n / step
  let r := n % step
  if 2 * r < step then q * step
  else if step < 2 * r then (q + 1) * step
  else if q % 2 = 0 then q * step else (q + 1) * step

/-- Whether the magnitude of the numeral is above every finite double. -/
def outOfRange (x : Numeral) : Bool :=
  let (whole, dropped) := trimWhole x.whole
  let (significand, used) := appendFraction whole x.fraction
  let scale : Int := dropped - used + x.exponent.getD 0
  significand ≠ 0 &&
    (308 < scale ||
      (0 ≤ scale &&
        Nat.pow 2 1024 ≤
          nearestDouble (nearestDouble significand * nearestDouble (Nat.pow 10 scale.toNat))))

end Numeral

end Amity
