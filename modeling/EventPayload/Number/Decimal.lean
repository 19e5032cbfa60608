import EventPayload.Number.Binary64

/-!
# Decimal numerals

A numeral is read in two steps: `Numeral.scan?` splits a text into its parts without judging
them, and a predicate says which parts a format admits.

* `Numeral` — sign, digits before and behind the point, exponent.
* `Numeral.IsStrict` — the numerals of JSON: no plus sign, no leading zero, no bare point.
* `Numeral.IsLoose` — the numerals of free text: a digit on either side of the point is enough.
* `Decimal` — coefficient and power of ten, the exact value of a numeral.
* `Decimal.toBinary64?` — its nearest double.
* `integer?` — an optional sign and at least one digit.
-/

namespace EventPayload

/-- The sign in front of a numeral or an exponent. -/
inductive Sign where
  | none
  | plus
  | minus
deriving DecidableEq

/-- The sign at the front of a text, and what follows it. -/
def Sign.scan : List Char → Sign × List Char
  | '+' :: rest => (.plus, rest)
  | '-' :: rest => (.minus, rest)
  | cs => (.none, cs)

def digitsValue (digits : List Char) : Nat :=
  Nat.ofDigitChars 10 digits 0

def Sign.apply (sign : Sign) (n : Nat) : Int :=
  if sign = .minus then -(n : Int) else n

/-- **Reading an integer.**  An optional sign and at least one digit, nothing else. -/
def integer? (cs : List Char) : Option Int :=
  let (sign, digits) := Sign.scan cs
  if digits ≠ [] ∧ digits.all Char.isDigit then some (sign.apply (digitsValue digits)) else none

/-! ## Exact decimals -/

/-- **An exact decimal.**  The value `± coefficient * 10 ^ exponent`. -/
structure Decimal where
  negative : Bool
  coefficient : Nat
  exponent : Int
deriving DecidableEq

namespace Decimal

/-- The power of ten just above the value: the number of digits plus the exponent. -/
def magnitude (d : Decimal) : Int :=
  (Nat.toDigits 10 d.coefficient).length + d.exponent

/-- **The nearest double.**  Values from `10 ^ 310` on are beyond the largest one, and values
below `10 ^ -331` round to zero, so that no larger power is ever formed. -/
def toBinary64? (d : Decimal) : Option Binary64 :=
  if d.coefficient = 0 ∨ d.magnitude < -330 then some (.zero d.negative)
  else if 310 < d.magnitude then none
  else Binary64.ofRatio? d.negative (d.coefficient * tenPow d.exponent.toNat)
    (tenPow (-d.exponent).toNat)

end Decimal

/-! ## Numerals -/

/-- **The parts of a numeral.**  `fraction` is absent when there is no point, and `exponent` when
there is no exponent mark; the digit runs may be empty. -/
structure Numeral where
  sign : Sign
  whole : List Char
  fraction : Option (List Char)
  exponent : Option (Sign × List Char)
deriving DecidableEq

namespace Numeral

/-- The digits behind a point, if there is one, and what follows them. -/
def scanFraction : List Char → Option (List Char) × List Char
  | '.' :: rest => (some (rest.takeWhile Char.isDigit), rest.dropWhile Char.isDigit)
  | cs => (none, cs)

/-- The exponent, if there is one; nothing may follow it. -/
def scanExponent? : List Char → Option (Option (Sign × List Char))
  | [] => some none
  | c :: rest =>
    let (sign, digits) := Sign.scan rest
    if (c = 'e' ∨ c = 'E') ∧ digits.all Char.isDigit then some (some (sign, digits)) else none

/-- **Splitting.**  The parts of a text that has the outline of a numeral. -/
def scan? (cs : List Char) : Option Numeral :=
  let (sign, cs) := Sign.scan cs
  let whole := cs.takeWhile Char.isDigit
  let (fraction, cs) := scanFraction (cs.dropWhile Char.isDigit)
  (scanExponent? cs).map fun exponent => ⟨sign, whole, fraction, exponent⟩

/-- The exponent mark, if there is one, is followed by a digit. -/
def HasExponentDigits (n : Numeral) : Prop :=
  n.exponent.all fun e => e.2 ≠ []

/-- **JSON's numerals.** -/
def IsStrict (n : Numeral) : Prop :=
  n.sign ≠ .plus ∧ n.whole ≠ [] ∧ (n.whole.head? = some '0' → n.whole = ['0'])
    ∧ n.fraction ≠ some [] ∧ n.HasExponentDigits

/-- **The numerals of free text.** -/
def IsLoose (n : Numeral) : Prop :=
  (n.whole ≠ [] ∨ n.fraction.any (· ≠ [])) ∧ n.HasExponentDigits

instance (n : Numeral) : Decidable n.HasExponentDigits :=
  inferInstanceAs (Decidable (_ = true))

instance (n : Numeral) : Decidable n.IsStrict :=
  inferInstanceAs (Decidable (_ ∧ _ ∧ _ ∧ _ ∧ _))

instance (n : Numeral) : Decidable n.IsLoose :=
  inferInstanceAs (Decidable (_ ∧ _))

def fractionDigits (n : Numeral) : List Char :=
  n.fraction.getD []

/-- The power of ten named by the exponent mark. -/
def power (n : Numeral) : Int :=
  match n.exponent with
  | none => 0
  | some (sign, digits) => sign.apply (digitsValue digits)

/-- **The exact value.**  All digits form the coefficient; those behind the point lower the
exponent. -/
def toDecimal (n : Numeral) : Decimal where
  negative := n.sign = .minus
  coefficient := digitsValue (n.whole ++ n.fractionDigits)
  exponent := n.power - n.fractionDigits.length

def isInteger (n : Numeral) : Bool :=
  n.fraction.isNone && n.exponent.isNone

end Numeral

end EventPayload
