import EventPayload.Number.Shortest

/-!
# How numbers are written

The digits of a double are the same question everywhere (`Binary64.shortest`); the formats differ
in how they lay them out.  A `Layout` lists those decisions, and `Layout.write` carries them out.

* `Layout.json` — the text inside a JSON document: a point with a zero behind whole numbers, an
  exponent outside the range of plain notation, signed zeros.
* `Layout.plain` — the text of a number on its own: plain notation at every size, no zero behind
  whole numbers, one zero.
-/

namespace EventPayload

/-- **The decisions of a format.** -/
structure Layout where
  /-- Which of two shortest decimals at the same distance is taken. -/
  tie : Tie
  /-- The leading powers of ten that are written without an exponent; absent means all. -/
  plainRange : Option (Int × Int)
  /-- What is put behind a whole number in plain notation. -/
  wholeEnding : List Char
  /-- Whether a negative zero keeps its sign. -/
  signedZero : Bool

namespace Layout

/-- Numbers inside a JSON document are plain from `10 ^ -5` to below `10 ^ 16`. -/
def json : Layout := ⟨.even, some (-5, 15), ['.', '0'], true⟩

/-- Numbers on their own are always plain. -/
def plain : Layout := ⟨.up, none, [], false⟩

/-- Whether a number with this leading power is written without an exponent. -/
def isPlain (layout : Layout) (leading : Int) : Bool :=
  layout.plainRange.all fun range => range.1 ≤ leading && leading ≤ range.2

/-- **Plain notation.**  Zeros fill the places between the digits and the point. -/
def writePlain (layout : Layout) (digits : List Char) (leading : Int) : List Char :=
  if leading < 0 then
    '0' :: '.' :: (List.replicate (-leading - 1).toNat '0' ++ digits)
  else
    let places := leading.toNat + 1
    if digits.length ≤ places then
      digits ++ List.replicate (places - digits.length) '0' ++ layout.wholeEnding
    else
      digits.take places ++ '.' :: digits.drop places

/-- **Scientific notation.**  One digit before the point, and an exponent with its sign. -/
def writeScientific (digits : List Char) (leading : Int) : List Char :=
  let exponent := 'e' :: (if leading < 0 then '-' else '+') :: Nat.toDigits 10 leading.natAbs
  match digits with
  | [] => exponent
  | [d] => d :: exponent
  | d :: rest => d :: '.' :: (rest ++ exponent)

def writeMagnitude (layout : Layout) (x : Binary64) : List Char :=
  if x.code = 0 then layout.writePlain ['0'] 0
  else
    let shortest := x.shortest layout.tie
    if layout.isPlain shortest.leading then layout.writePlain shortest.digits shortest.leading
    else writeScientific shortest.digits shortest.leading

/-- **The text of a double.** -/
def write (layout : Layout) (x : Binary64) : List Char :=
  if x.negative && (x.code ≠ 0 || layout.signedZero) then '-' :: layout.writeMagnitude x
  else layout.writeMagnitude x

end Layout

end EventPayload
