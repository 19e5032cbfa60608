import EventPayload.Number.Decimal
import EventPayload.Toml.Literal

/-!
# Words in TOML

A value that is neither a text nor a container is one word: a truth value, a number, or a moment.
A moment may also be a date and a time with one space between them.

* `Toml.ungroup?` — digits without the underscores between them.
* `Toml.isInteger`, `Toml.isFloat` — numbers.
* `Toml.afterDate?`, `Toml.afterClock?`, `Toml.isMoment` — dates and times.
* `Toml.ofWord?` — what a word stands for.
* `Toml.word?` — the value at the front of a text.
-/

namespace EventPayload.Toml

def isWordChar (c : Char) : Bool :=
  c.isAlphanum || c = '_' || c = '-' || c = '+' || c = '.' || c = ':'

/-! ## Numbers -/

/-- **Ungrouping.**  An underscore may stand between two digits, and nowhere else. -/
def ungroup? (isDigit : Char → Bool) : List Char → Option (List Char)
  | a :: '_' :: b :: rest =>
    if isDigit a && isDigit b then (ungroup? isDigit (b :: rest)).map (a :: ·) else none
  | '_' :: _ => none
  | c :: rest => (ungroup? isDigit rest).map (c :: ·)
  | [] => some []

/-- The value of at least one digit of a base up to sixteen. -/
def digitsOfBase? (base : Nat) (cs : List Char) : Option Nat :=
  if cs.isEmpty then none
  else cs.foldlM (fun n c => do
    let digit ← Text.hexValue? c
    if digit < base then return n * base + digit else none) 0

/-- Whether the digits of a base, perhaps in groups, form an integer of sixty-three bits. -/
def isBased (base : Nat) (cs : List Char) : Bool :=
  let digits? := ungroup? (fun c => (Text.hexValue? c).isSome) cs
  (digits?.bind (digitsOfBase? base)).any (· < twoPow 63)

/-- Whether the characters are an integer of sixty-four bits with sign. -/
def isDecimal (cs : List Char) : Bool :=
  let digits := (Sign.scan cs).2
  (digits.head? ≠ some '0' || digits = ['0'])
    && (integer? cs).any fun value => -(twoPow 63 : Int) ≤ value && value < twoPow 63

/-- **Integers.**  Decimal ones may have a sign; other bases are named by a mark in front. -/
def isInteger : List Char → Bool
  | '0' :: 'x' :: digits => isBased 16 digits
  | '0' :: 'o' :: digits => isBased 8 digits
  | '0' :: 'b' :: digits => isBased 2 digits
  | cs => (ungroup? Char.isDigit cs).any isDecimal

/-- The names of the values that are not finite. -/
def isSpecial (cs : List Char) : Bool :=
  cs = ['i', 'n', 'f'] || cs = ['n', 'a', 'n']

/-- Whether a numeral behind a sign is one with a point or an exponent.  A positive one must not
exceed the largest double. -/
def isScaled (sign : Sign) (cs : List Char) : Bool :=
  match Numeral.scan? cs with
  | none => false
  | some numeral =>
    numeral.sign = .none && numeral.IsStrict && !numeral.isInteger
      && (sign = .minus || numeral.toDecimal.toBinary64?.isSome)

/-- **Numbers with a point or an exponent**, and the names of special values. -/
def isFloat (cs : List Char) : Bool :=
  let (sign, magnitude) := Sign.scan cs
  isSpecial magnitude || (ungroup? Char.isDigit magnitude).any (isScaled sign)

/-! ## Moments -/

def twoDigits? (a b : Char) : Option Nat :=
  if a.isDigit && b.isDigit then some (digitsValue [a, b]) else none

def daysIn (year month : Nat) : Nat :=
  if month = 2 then
    if year % 4 = 0 ∧ (year % 100 ≠ 0 ∨ year % 400 = 0) then 29 else 28
  else if month = 4 ∨ month = 6 ∨ month = 9 ∨ month = 11 then 30
  else 31

/-- What follows a date of the calendar. -/
def afterDate? : List Char → Option (List Char)
  | a :: b :: c :: d :: '-' :: e :: f :: '-' :: g :: h :: rest => do
    let century ← twoDigits? a b
    let year ← twoDigits? c d
    let month ← twoDigits? e f
    let day ← twoDigits? g h
    if 1 ≤ month ∧ month ≤ 12 ∧ 1 ≤ day ∧ day ≤ daysIn (century * 100 + year) month then
      some rest
    else none
  | _ => none

/-- What follows a fraction of a second, if there is one. -/
def afterFraction? : List Char → Option (List Char)
  | '.' :: cs =>
    if (cs.takeWhile Char.isDigit).isEmpty then none else some (cs.dropWhile Char.isDigit)
  | cs => some cs

def onClock (hour minute : Nat) : Bool :=
  hour < 24 && minute < 60

/-- What follows a time of the day; a minute may have a leap second. -/
def afterClock? : List Char → Option (List Char)
  | a :: b :: ':' :: c :: d :: ':' :: e :: f :: rest => do
    let hour ← twoDigits? a b
    let minute ← twoDigits? c d
    let second ← twoDigits? e f
    if onClock hour minute ∧ second ≤ 60 then afterFraction? rest else none
  | _ => none

/-- Whether the characters say how far the clock is off, or nothing. -/
def isOffset : List Char → Bool
  | [] | ['Z'] | ['z'] => true
  | [sign, a, b, ':', c, d] =>
    (sign = '+' || sign = '-')
      && ((twoDigits? a b).any fun hour => (twoDigits? c d).any fun minute => onClock hour minute)
  | _ => false

/-- Whether the characters are a time of the day with or without an offset. -/
def isClock (cs : List Char) : Bool :=
  (afterClock? cs).any isOffset

def isDate (cs : List Char) : Bool :=
  afterDate? cs = some []

/-- **Moments.**  A date, a time without an offset, or both with a mark between them. -/
def isMoment (cs : List Char) : Bool :=
  match afterDate? cs with
  | some [] => true
  | some (mark :: clock) => (mark = 'T' || mark = 't') && isClock clock
  | none => afterClock? cs = some []

/-! ## Values -/

/-- **What a word stands for.** -/
def ofWord? (word : List Char) : Option Value :=
  if word = ['t', 'r', 'u', 'e'] then some (.boolean true)
  else if word = ['f', 'a', 'l', 's', 'e'] then some (.boolean false)
  else if isInteger word || isFloat word then some .number
  else if isMoment word then some .moment
  else none

/-- **The value at the front**, where that is a word.  A date takes a time behind one space with
it. -/
def word? (cs : List Char) : Option (Value × List Char) :=
  let word := cs.takeWhile isWordChar
  let rest := cs.dropWhile isWordChar
  let later := rest.tail.takeWhile isWordChar
  if isDate word && rest.head? = some ' ' && !later.isEmpty then
    if isClock later then some (.moment, rest.tail.dropWhile isWordChar) else none
  else (ofWord? word).map fun value => (value, rest)

end EventPayload.Toml
