import EventPayload.Number.Layout

/-!
# Numbers

A JSON number is an integer that fits in sixty-four bits, signed or unsigned, or else a finite
double.

* `WideInteger` — an integer from `-2 ^ 63` to below `2 ^ 64`.
* `Number` — one or the other.
* `Number.ofNumeral?` — reading: integers are kept exactly where they fit.
* `Number.toChars` — writing in a given layout.
-/

namespace EventPayload

/-- **A wide integer.**  Signed or unsigned, it takes sixty-four bits. -/
structure WideInteger where
  value : Int
  lower : -(twoPow 63 : Int) ≤ value
  upper : value < twoPow 64
deriving DecidableEq

theorem WideInteger.eq_of_value {n m : WideInteger} (h : n.value = m.value) : n = m := by
  cases n
  cases m
  simp_all

def WideInteger.ofInt? (value : Int) : Option WideInteger :=
  if h : -(twoPow 63 : Int) ≤ value ∧ value < twoPow 64 then some ⟨value, h.1, h.2⟩ else none

/-- The integer that a double is converted to, in the range of those with sign. -/
def WideInteger.ofDouble (x : Binary64) : WideInteger :=
  ⟨x.toNarrow, x.toNarrow_bounds.1, Int.lt_trans x.toNarrow_bounds.2 (by decide)⟩

inductive Number where
  | integer (n : WideInteger)
  | double (x : Binary64)
deriving DecidableEq

namespace Number

/-- The integer text of a value: a minus sign where there is one, and the decimal digits. -/
def integerChars (value : Int) : List Char :=
  if value < 0 then '-' :: Nat.toDigits 10 value.natAbs else Nat.toDigits 10 value.natAbs

/-- **Writing.** -/
def toChars (layout : Layout) : Number → List Char
  | integer n => integerChars n.value
  | double x => layout.write x

/-- The double nearest to a numeral; none beyond the largest finite one. -/
def doubleOf? (numeral : Numeral) : Option Number :=
  numeral.toDecimal.toBinary64?.map double

/-- **Reading.**  A numeral without point and exponent is an integer where it fits.  The negative
zero is a double, since no integer can hold its sign. -/
def ofNumeral? (numeral : Numeral) : Option Number :=
  let value := numeral.sign.apply (digitsValue numeral.whole)
  if numeral.isInteger && !(value = 0 && numeral.sign = .minus) then
    match WideInteger.ofInt? value with
    | some n => some (integer n)
    | none => doubleOf? numeral
  else doubleOf? numeral

end Number

end EventPayload
