import EventPayload.Json.Basic
import EventPayload.Number.Datum
import EventPayload.Text.Blank

/-!
# Coercions

A coercion turns a value into one of a wanted type, or yields nothing; it never fails.

* `Coercion.toText` — numbers, truth values and texts as text.
* `Coercion.toInteger` — numbers and numeric texts as integers, truncated towards zero.
* `Coercion.toNumber` — numbers and numeric texts as numbers.
* `Coercion.toDate` — a text of year, month and day as an object of three integers.
* `Coercion.apply` — a coercion given by name.

Texts may carry blanks around a numeral.  A text that is an integer in the range of `narrow?` is
read as that integer, exactly; any other goes through the floating-point datum that it stands for,
which must be finite.
-/

namespace EventPayload

/-- **The coercions.** -/
inductive Coercion where
  | text
  | integer
  | number
  | date
deriving DecidableEq

namespace Coercion

/-! ## Names -/

def name : Coercion → String
  | text => "toString"
  | integer => "toInteger"
  | number => "toNumber"
  | date => "parseDate"

def all : List Coercion := [text, integer, number, date]

/-- A name that no coercion has. -/
structure Unknown where
  name : String
deriving DecidableEq

def Unknown.message (unknown : Unknown) : String :=
  "unknown conversion '" ++ unknown.name ++ "'"

/-- **The coercion of a given name.** -/
def ofName (s : String) : Except Unknown Coercion :=
  match all.find? (·.name = s) with
  | some coercion => .ok coercion
  | none => .error ⟨s⟩

theorem ofName_name (c : Coercion) : ofName c.name = .ok c := by
  cases c <;> rfl

/-! ## Integers -/

/-- The integers of sixty-four bits with sign, as JSON numbers. -/
def narrow? (value : Int) : Option Number :=
  if h : -(twoPow 63 : Int) ≤ value ∧ value < twoPow 63 then
    some (.integer ⟨value, h.1, Int.lt_trans h.2 (by decide)⟩)
  else none

/-- The integer that a text without surrounding blanks spells exactly. -/
def exactInteger? (cs : List Char) : Option Number :=
  (integer? cs).bind narrow?

/-! ## Floating-point data -/

/-- **Truncation.**  The whole part of a finite datum, if it lies between the ends of the range.  The
ends are compared as doubles, and the upper one is already out of range as such. -/
def truncated? : Datum → Option Number
  | .finite x =>
    let whole := x.wholePart
    if whole < Binary64.leastNarrow ∨ Binary64.greatestNarrow ≤ whole then none
    else some (.integer (.ofDouble whole))
  | .infinite _ | .notANumber => none

/-- A finite datum as a JSON number. -/
def finite? : Datum → Option Number
  | .finite x => some (.double x)
  | .infinite _ | .notANumber => none

/-! ## The four coercions -/

/-- **To text.**  Texts stay; null, arrays and objects have none. -/
def toText : Json → Option Json
  | .str s => some (.str s)
  | .bool b => some (.str (if b then "true" else "false"))
  | .num n => some (.str (String.ofList (n.toChars .plain)))
  | .null | .arr _ | .obj _ => none

/-- **To an integer.**  Integers stay; a double is truncated towards zero and must then fit into
sixty-four bits with sign. -/
def toInteger : Json → Option Json
  | .num (.integer n) => some (.num (.integer n))
  | .num (.double x) => (truncated? (.finite x)).map .num
  | .str s =>
    let cs := Text.trimChars s.toList
    match exactInteger? cs with
    | some n => some (.num n)
    | none => ((Datum.read? cs).bind truncated?).map .num
  | _ => none

/-- **To a number.**  Numbers stay. -/
def toNumber : Json → Option Json
  | .num n => some (.num n)
  | .str s =>
    let cs := Text.trimChars s.toList
    match exactInteger? cs with
    | some n => some (.num n)
    | none => ((Datum.read? cs).bind finite?).map .num
  | _ => none

/-- A run of digits that names an integer of thirty-two bits. -/
def datePart? (digits : List Char) : Option Number :=
  if digits ≠ [] ∧ digits.all Char.isDigit ∧ digitsValue digits < twoPow 32 then
    narrow? (digitsValue digits)
  else none

/-- The year that stands for an unknown one. -/
def unknownYear : List Char := ['0', '0', '0', '0']

/-- **To a date.**  Three runs of digits between dashes; the year `0000` is left out. -/
def toDate : Json → Option Json
  | .str s =>
    match s.toList.splitOn '-' with
    | [y, m, d] => do
      let year ← datePart? y
      let month ← datePart? m
      let day ← datePart? d
      let monthAndDay := [("month", .num month), ("day", .num day)]
      return .obj (if y = unknownYear then monthAndDay else ("year", .num year) :: monthAndDay)
    | _ => none
  | _ => none

/-- **Applying a coercion.** -/
def apply : Coercion → Json → Option Json
  | text => toText
  | integer => toInteger
  | number => toNumber
  | date => toDate

end Coercion

end EventPayload
