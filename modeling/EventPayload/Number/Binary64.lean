import EventPayload.Number.Power

/-!
# Finite binary64 numbers

A finite double is a sign and the code of its magnitude, the lower sixty-three bits of its
encoding.  Every such magnitude is a whole number of *units* of `2 ^ -1074`, so all of this file
is exact arithmetic on natural numbers.

* `Binary64.units` — the magnitude, counted in units.
* `Binary64.truncate` — the integer towards zero.
* `Binary64.wholePart` — the double without its fraction.
* `x < y`, `x ≤ y` — the order of the doubles, in which the two zeros are equal.
* `Binary64.halfEven` — a quotient rounded to the nearest integer, a half to the even neighbour.
* `Binary64.nearestCode` — the code of the nearest double to a quotient.
* `Binary64.ofRatio?` — the nearest double, if it is finite.
* `Binary64.leastNarrow`, `Binary64.greatestNarrow`, `Binary64.toNarrow` — the integers of
  sixty-four bits with sign, as doubles and from doubles.

The codes are in the order of the magnitudes they stand for, and a mantissa that is rounded up to
`2 ^ 53` carries into the next scale by plain addition, which is why `nearestCode` needs no case
for it.
-/

namespace EventPayload

/-- **A finite double.**  Codes from `2047 * 2 ^ 52` on would be infinities and not-a-numbers. -/
structure Binary64 where
  negative : Bool
  code : Nat
  code_lt : code < 2047 * twoPow 52
deriving DecidableEq

namespace Binary64

/-! ## The value -/

/-- How many times the unit is doubled to give the weight of the mantissa's last bit. -/
def scale (x : Binary64) : Nat :=
  x.code / twoPow 52 - 1

/-- The significant bits: below `2 ^ 53`, and at least `2 ^ 52` unless the scale is zero. -/
def mantissa (x : Binary64) : Nat :=
  x.code - x.scale * twoPow 52

/-- The magnitude in units of `2 ^ -1074`. -/
def units (x : Binary64) : Nat :=
  x.mantissa * twoPow x.scale

/-- The number of units that make up one. -/
def one : Nat := twoPow 1074

def signed (x : Binary64) (magnitude : Nat) : Int :=
  if x.negative then -(magnitude : Int) else magnitude

/-- **Truncation.**  The integer part, towards zero. -/
def truncate (x : Binary64) : Int :=
  x.signed (x.units / one)

def zero (negative : Bool) : Binary64 :=
  ⟨negative, 0, by decide⟩

/-- **The whole part.**  The bits of the mantissa that lie behind the point are cleared, and nothing
but zero is left if all of them do.  The sign stays. -/
def wholePart (x : Binary64) : Binary64 :=
  let places := 1074 - x.scale
  if 52 < places then zero x.negative
  else ⟨x.negative, x.code - x.code % twoPow places, Nat.lt_of_le_of_lt (Nat.sub_le ..) x.code_lt⟩

/-! ## Order -/

instance : LT Binary64 := ⟨fun x y => x.signed x.code < y.signed y.code⟩

instance : LE Binary64 := ⟨fun x y => x.signed x.code ≤ y.signed y.code⟩

instance (x y : Binary64) : Decidable (x < y) :=
  inferInstanceAs (Decidable (x.signed x.code < y.signed y.code))

instance (x y : Binary64) : Decidable (x ≤ y) :=
  inferInstanceAs (Decidable (x.signed x.code ≤ y.signed y.code))

/-! ## Rounding -/

/-- **Rounding a quotient.**  The nearest integer; a half goes to the even neighbour. -/
def halfEven (num den : Nat) : Nat :=
  let quotient := num / den
  let twice := 2 * (num % den)
  if den < twice ∨ (twice = den ∧ quotient % 2 = 1) then quotient + 1 else quotient

/-- **The nearest code.**  The scale is the least that leaves a mantissa of at most fifty-three
bits; the quotient is then rounded at that scale. -/
def nearestCode (num den : Nat) : Nat :=
  let num := num * one
  let scale := Nat.log2 (num / den) + 1 - 53
  scale * twoPow 52 + halfEven num (den * twoPow scale)

/-- The nearest double to a quotient, unless that lies beyond the largest finite one. -/
def ofRatio? (negative : Bool) (num den : Nat) : Option Binary64 :=
  let code := nearestCode num den
  if h : code < 2047 * twoPow 52 then some ⟨negative, code, h⟩ else none

/-! ## Integers of sixty-four bits with sign -/

/-- The code of `2 ^ 63` is that of a double. -/
theorem narrowCode_lt : 1086 * twoPow 52 < 2047 * twoPow 52 := by
  decide

/-- The double nearest to the least of these integers, which is that integer. -/
def leastNarrow : Binary64 :=
  ⟨true, 1086 * twoPow 52, narrowCode_lt⟩

/-- The double nearest to the greatest of these integers, which is one more than that. -/
def greatestNarrow : Binary64 :=
  ⟨false, 1086 * twoPow 52, narrowCode_lt⟩

/-- **Conversion to such an integer.**  The fraction is lost, and a double out of range goes to the
nearer end of it. -/
def toNarrow (x : Binary64) : Int :=
  max (-(twoPow 63 : Int)) (min ((twoPow 63 : Int) - 1) x.truncate)

/-! ## Laws -/

/-- A conversion is in range. -/
theorem toNarrow_bounds (x : Binary64) :
    -(twoPow 63 : Int) ≤ x.toNarrow ∧ x.toNarrow < twoPow 63 := by
  have hpos := twoPow_pos 63
  simp only [toNarrow]
  omega

theorem units_zero (negative : Bool) : (zero negative).units = 0 := by
  simp [zero, units, mantissa]

/-- Rounding never moves a quotient by a whole integer. -/
theorem halfEven_bounds (num den : Nat) :
    num / den ≤ halfEven num den ∧ halfEven num den ≤ num / den + 1 := by
  simp only [halfEven]
  split <;> omega

end Binary64

end EventPayload
