import EventPayload.Number.Decimal

/-!
# The shortest digits of a double

Of all decimals that read back as a given double, the text of the double shows one with the
fewest digits, and of those the nearest.

* `Binary64.leading` — the power of ten of the first digit.
* `Binary64.candidate?` — the better of the two decimals of `n` digits around the value that
  reads back.
* `Binary64.decimal` — the first candidate as `n` grows; seventeen digits always do, and the
  exact expansion stands behind them, so the function is total without knowing that.
* `Binary64.shortest` — its significant digits.

Whether a decimal reads back is decided by the very function that reads numerals, so `shortest`
reads back by construction.  Two candidates may lie at the same distance; `Tie` says which one a
format takes.
-/

namespace EventPayload

/-- Which of two decimals at the same distance is taken. -/
inductive Tie where
  | even
  | up
deriving DecidableEq

namespace Binary64

/-- **The first digit's place.**  Counting digits of the value times `10 ^ 324` keeps the count
in natural numbers, since no positive double is below that power. -/
def leading (x : Binary64) : Int :=
  ((Nat.toDigits 10 (x.units * tenPow 324 / one)).length : Int) - 325

/-- Whether `coefficient * 10 ^ k` has the double's magnitude as its nearest. -/
def readsBack (x : Binary64) (coefficient : Nat) (k : Int) : Bool :=
  nearestCode (coefficient * tenPow k.toNat) (tenPow (-k).toNat) = x.code

/-- Whether the upper of two neighbours that both read back is taken, when the value lies
`rest / den` of a step above the lower one. -/
def takesUpper (tie : Tie) (lower rest den : Nat) : Bool :=
  den < 2 * rest || (2 * rest = den && (tie = .up || lower % 2 = 1))

/-- **The candidates of `n` digits.**  The value lies between two neighbours on the grid of its
`n` leading places; of those that read back the nearer is taken. -/
def candidate? (tie : Tie) (x : Binary64) (n : Nat) : Option (Nat × Int) :=
  let k := x.leading + 1 - n
  let num := x.units * tenPow (-k).toNat
  let den := one * tenPow k.toNat
  let lower := num / den
  let upper := lower + 1
  if x.readsBack lower k && !(x.readsBack upper k && takesUpper tie lower (num % den) den) then
    some (lower, k)
  else if x.readsBack upper k then some (upper, k)
  else none

/-- Significant digits, the first of which has the weight `10 ^ leading`. -/
structure Digits where
  digits : List Char
  leading : Int
deriving DecidableEq

/-- The significant digits of `coefficient * 10 ^ k`, without zeros at the end. -/
def Digits.ofCoefficient (coefficient : Nat) (k : Int) : Digits :=
  let digits := Nat.toDigits 10 coefficient
  ⟨(digits.reverse.dropWhile (· = '0')).reverse, k + digits.length - 1⟩

/-- The exact expansion, which has no place beyond `10 ^ -1074`. -/
def expansion (x : Binary64) : Nat × Int :=
  (x.units * (tenPow 1074 / one), -1074)

/-- **The decimal that is shown**: the first candidate as the number of digits grows. -/
def decimal (tie : Tie) (x : Binary64) : Nat × Int :=
  ((List.range 17).findSome? fun i => candidate? tie x (i + 1)).getD x.expansion

/-- **The shortest digits** of a magnitude other than zero. -/
def shortest (tie : Tie) (x : Binary64) : Digits :=
  let decimal := x.decimal tie
  .ofCoefficient decimal.1 decimal.2

end Binary64

end EventPayload
