import EventPayload.Text.Quoted
import EventPayload.Toml.Basic

/-!
# Texts in TOML

Four notations: between double quotes with escapes or between single quotes as they stand, on one
line or, with three quotes, on several.

* `Toml.isPlain` — the characters that stand for themselves.
* `Toml.unescape?` — the characters that a body with escapes stands for.
* `Toml.untilTriple?` — cuts off a body on several lines.
* `Toml.line?`, `Toml.literal?` — a text on one line, and any text.
-/

namespace EventPayload.Toml

/-- A part of a document that has been read, and what follows it. -/
abbrev Reading (α : Type) := List Char → Option (α × List Char)

/-! ## Characters -/

/-- The blanks within a line. -/
def isGap (c : Char) : Bool :=
  c = ' ' || c = '\t'

/-- What follows the blanks within a line. -/
def skipGap (cs : List Char) : List Char :=
  cs.dropWhile isGap

/-- **Plain characters**: all but the control characters of ASCII, the tab excepted. -/
def isPlain (c : Char) : Bool :=
  c = '\t' || (0x20 ≤ c.toNat && c.toNat ≠ 0x7F)

/-! ## Escapes -/

/-- The character that a one-letter escape stands for. -/
def shortEscape? : Char → Option Char
  | '"' => some '"'
  | '\\' => some '\\'
  | 'b' => some '\x08'
  | 'f' => some '\x0c'
  | 'n' => some '\n'
  | 'r' => some '\r'
  | 't' => some '\t'
  | _ => none

/-- Whether a backslash in front of these characters joins the line to the next one. -/
def joinsLines (cs : List Char) : Bool :=
  (skipGap cs).head? = some '\n'

/-- **Removing escapes.**  `multiline` admits line breaks; `joining` is set behind a backslash that
joins lines, where blanks and line breaks are dropped. -/
def unescape? (multiline joining : Bool) : List Char → Option (List Char)
  | [] => some []
  | '\\' :: 'u' :: a :: b :: c :: d :: rest => do
    let n ← Text.hexNumber? [a, b, c, d]
    return (← Text.scalarChar? n) :: (← unescape? multiline false rest)
  | '\\' :: 'U' :: a :: b :: c :: d :: e :: f :: g :: h :: rest => do
    let n ← Text.hexNumber? [a, b, c, d, e, f, g, h]
    return (← Text.scalarChar? n) :: (← unescape? multiline false rest)
  | '\\' :: c :: rest =>
    match shortEscape? c with
    | some plain => do return plain :: (← unescape? multiline false rest)
    | none => if multiline && joinsLines (c :: rest) then unescape? multiline true rest else none
  | c :: rest =>
    if joining && (isGap c || c = '\n') then unescape? multiline true rest
    else if isPlain c || multiline && c = '\n' then do
      return c :: (← unescape? multiline false rest)
    else none

/-! ## Texts on one line -/

/-- Cutting off a body at the single quote that ends it. -/
def untilApostrophe? (cs : List Char) : Option (List Char × List Char) :=
  let body := cs.takeWhile fun c => isPlain c && c ≠ '\''
  match cs.drop body.length with
  | '\'' :: rest => some (body, rest)
  | _ => none

/-- **A text on one line.** -/
def line? : Reading String
  | '"' :: cs => do
    let (body, rest) ← Text.untilQuote? [] cs
    return (String.ofList (← unescape? false false body), rest)
  | '\'' :: cs => do
    let (body, rest) ← untilApostrophe? cs
    return (String.ofList body, rest)
  | _ => none

/-! ## Texts on several lines -/

/-- **Cutting off a body at three quotes.**  Up to two more quotes behind these belong to the body.
With `escapes`, a backslash protects the character behind it; `seen` holds the characters already
passed, the last one first. -/
def untilTriple? (quote : Char) (escapes : Bool) (seen : List Char) : Reading (List Char)
  | [] => none
  | '\\' :: c :: rest =>
    if escapes then untilTriple? quote escapes (c :: '\\' :: seen) rest
    else untilTriple? quote escapes ('\\' :: seen) (c :: rest)
  | c :: rest =>
    if c = quote && rest.take 2 = [quote, quote] then
      let extra := ((rest.drop 2).take 2).takeWhile (· = quote)
      some (seen.reverse ++ extra, rest.drop (2 + extra.length))
    else untilTriple? quote escapes (c :: seen) rest

/-- A body without the line break right behind the opening quotes. -/
def dropBreak : List Char → List Char
  | '\n' :: cs => cs
  | cs => cs

/-- **A text.** -/
def literal? : Reading String
  | '"' :: '"' :: '"' :: cs => do
    let (body, rest) ← untilTriple? '"' true [] (dropBreak cs)
    return (String.ofList (← unescape? true false body), rest)
  | '\'' :: '\'' :: '\'' :: cs => do
    let (body, rest) ← untilTriple? '\'' false [] (dropBreak cs)
    if body.all fun c => isPlain c || c = '\n' then return (String.ofList body, rest) else none
  | cs => line? cs

end EventPayload.Toml
