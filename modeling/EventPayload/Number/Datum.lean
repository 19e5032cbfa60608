import EventPayload.Number.Decimal

/-!
# Floating-point data

A text can stand for more than the finite doubles: a numeral may lie beyond the largest of them, and
there are words for what is infinite or no number at all.

* `Datum` — a finite double, an infinity of either sign, or not a number.
* `Datum.ofWord?` — the words `inf`, `infinity` and `nan`, in letters of any case.
* `Datum.read?` — reading a text: a sign, then a numeral or a word.
-/

namespace EventPayload

/-- **A floating-point datum.** -/
inductive Datum where
  | finite (x : Binary64)
  | infinite (negative : Bool)
  | notANumber
deriving DecidableEq

namespace Datum

/-- The datum of a value with a given nearest double: infinite if there is none. -/
def ofNearest (negative : Bool) : Option Binary64 → Datum
  | some x => finite x
  | none => infinite negative

def ofDecimal (d : Decimal) : Datum :=
  ofNearest d.negative d.toBinary64?

/-- The datum that a word names, behind its sign. -/
def ofWord? (negative : Bool) (word : List Char) : Option Datum :=
  let word := word.map Char.toLower
  if word = ['i', 'n', 'f'] ∨ word = ['i', 'n', 'f', 'i', 'n', 'i', 't', 'y'] then
    some (infinite negative)
  else if word = ['n', 'a', 'n'] then some notANumber
  else none

/-- **Reading.**  The datum that a text without surrounding blanks stands for. -/
def read? (cs : List Char) : Option Datum :=
  match Numeral.scan? cs with
  | some numeral => if numeral.IsLoose then some (ofDecimal numeral.toDecimal) else none
  | none =>
    let (sign, word) := Sign.scan cs
    ofWord? (sign = .minus) word

end Datum

end EventPayload
