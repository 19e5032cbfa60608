import EventPayload.Json.Basic
import EventPayload.Text.Quoted

/-!
# JSON tokens

The first step of reading: a text becomes a list of tokens.

* `Json.Token` — punctuation, and whole scalar values.
* `Json.unescape?` — the characters that a string body stands for.
* `Json.scalar?` — what a run of word characters stands for.
* `Json.lex?` — all tokens of a text.

Escapes name UTF-16 units, so a body is first read as a list of `Piece`s, in which a pair of
surrogate units is then joined to one character.
-/

namespace EventPayload.Json

/-- **A token.** -/
inductive Token where
  | openArray
  | closeArray
  | openObject
  | closeObject
  | comma
  | colon
  | scalar (value : Json)

/-! ## Strings -/

/-- A character, or a UTF-16 unit that an escape names. -/
inductive Piece where
  | char (c : Char)
  | unit (n : Nat)

/-- The character that a one-letter escape stands for. -/
def letterEscape? : Char → Option Char
  | '"' => some '"'
  | '\\' => some '\\'
  | '/' => some '/'
  | 'b' => some '\x08'
  | 'f' => some '\x0c'
  | 'n' => some '\n'
  | 'r' => some '\r'
  | 't' => some '\t'
  | _ => none

/-- The pieces of a string body.  A bare control character is refused. -/
def pieces? : List Char → Option (List Piece)
  | [] => some []
  | '\\' :: 'u' :: a :: b :: c :: d :: rest => do
    let n ← Text.hexNumber? [a, b, c, d]
    return .unit n :: (← pieces? rest)
  | '\\' :: c :: rest => do
    let c ← letterEscape? c
    return .char c :: (← pieces? rest)
  | c :: rest =>
    if c.toNat < 0x20 then none
    else do return .char c :: (← pieces? rest)

def isHighSurrogate (n : Nat) : Bool :=
  0xD800 ≤ n && n < 0xDC00

def isLowSurrogate (n : Nat) : Bool :=
  0xDC00 ≤ n && n < 0xE000

/-- **Joining units.**  A high surrogate takes the low one behind it; neither may stand alone. -/
def joinUnits? : List Piece → Option (List Char)
  | [] => some []
  | .char c :: rest => do return c :: (← joinUnits? rest)
  | .unit high :: .unit low :: rest =>
    if isHighSurrogate high then
      if isLowSurrogate low then do
        let c := Char.ofNat (0x10000 + (high - 0xD800) * 0x400 + (low - 0xDC00))
        return c :: (← joinUnits? rest)
      else none
    else if isLowSurrogate high then none
    else do return Char.ofNat high :: (← joinUnits? (.unit low :: rest))
  | .unit n :: rest =>
    if isHighSurrogate n || isLowSurrogate n then none
    else do return Char.ofNat n :: (← joinUnits? rest)

def unescape? (body : List Char) : Option String := do
  let pieces ← pieces? body
  return String.ofList (← joinUnits? pieces)

/-! ## Words -/

/-- The characters that names of constants and numerals are made of. -/
def isWordChar (c : Char) : Bool :=
  c.isAlphanum || c = '+' || c = '-' || c = '.'

/-- **A word.**  One of the three constants, or a numeral. -/
def scalar? (word : List Char) : Option Json :=
  if word = ['n', 'u', 'l', 'l'] then some .null
  else if word = ['t', 'r', 'u', 'e'] then some (.bool true)
  else if word = ['f', 'a', 'l', 's', 'e'] then some (.bool false)
  else do
    let numeral ← Numeral.scan? word
    if numeral.IsStrict then
      return .num (← Number.ofNumeral? numeral)
    else none

/-! ## Texts -/

/-- The four characters that may stand between tokens. -/
def isSpace (c : Char) : Bool :=
  c = ' ' || c = '\t' || c = '\n' || c = '\r'

/-- The tokens of one character. -/
def punctuation? : Char → Option Token
  | '[' => some .openArray
  | ']' => some .closeArray
  | '\x7b' => some .openObject
  | '\x7d' => some .closeObject
  | ',' => some .comma
  | ':' => some .colon
  | _ => none

/-- **Lexing.**  The tokens of a text, behind those already seen, the last one first. -/
def lexFrom? (seen : List Token) : List Char → Option (List Token)
  | [] => some seen.reverse
  | c :: rest =>
    if isSpace c then lexFrom? seen rest
    else if c = '"' then
      match h : Text.untilQuote? [] rest with
      | none => none
      | some (body, after) =>
        have := Text.untilQuote?_length h
        match unescape? body with
        | none => none
        | some s => lexFrom? (.scalar (.str s) :: seen) after
    else match punctuation? c with
      | some token => lexFrom? (token :: seen) rest
      | none =>
        if isWordChar c then
          match scalar? (c :: rest.takeWhile isWordChar) with
          | none => none
          | some value =>
            have := (List.dropWhile_suffix (l := rest) isWordChar).length_le
            lexFrom? (.scalar value :: seen) (rest.dropWhile isWordChar)
        else none
termination_by cs => cs.length
decreasing_by all_goals simp_all <;> omega

def lex? (text : String) : Option (List Token) :=
  lexFrom? [] text.toList

end EventPayload.Json
