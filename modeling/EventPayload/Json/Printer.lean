import EventPayload.Json.Basic

/-!
# Writing JSON

One printer in two styles: everything on one line, or one entry a line with an indentation.

* `Json.escape` — a character inside a string literal.
* `Json.Style` — how entries are set apart.
* `Json.write` — the text of a value at a given depth.
* `Json.compact`, `Json.pretty` — the two styles in use.

Empty containers are written without a break in either style.
-/

namespace EventPayload.Json

/-! ## Strings -/

/-- Four hexadecimal digits in lower case. -/
def hexDigits (n : Nat) : List Char :=
  [n / 4096, n / 256 % 16, n / 16 % 16, n % 16].map Nat.digitChar

/-- **Escaping.**  Quotes, backslashes and the control characters below the space are escaped,
the usual ones by a letter; all else stands as it is. -/
def escape (c : Char) : List Char :=
  match c with
  | '"' => ['\\', '"']
  | '\\' => ['\\', '\\']
  | '\n' => ['\\', 'n']
  | '\t' => ['\\', 't']
  | '\r' => ['\\', 'r']
  | '\x08' => ['\\', 'b']
  | '\x0c' => ['\\', 'f']
  | c => if c.toNat < 0x20 then '\\' :: 'u' :: hexDigits c.toNat else [c]

def quote (s : String) : String :=
  String.ofList ('"' :: (s.toList.flatMap escape ++ ['"']))

/-! ## Values -/

/-- **How entries are set apart.**  With an indentation each entry has a line of its own. -/
structure Style where
  indentation : Option Nat

/-- What stands before an entry at a given depth. -/
def Style.lineBreak (style : Style) (depth : Nat) : String :=
  match style.indentation with
  | none => ""
  | some width => String.ofList ('\n' :: List.replicate (width * depth) ' ')

def Style.colon (style : Style) : String :=
  if style.indentation.isNone then ":" else ": "

mutual

/-- **The text of a value** whose entries are at `depth + 1`. -/
def write (style : Style) (depth : Nat) : Json → String
  | null => "null"
  | bool true => "true"
  | bool false => "false"
  | num n => String.ofList (n.toChars .json)
  | str s => quote s
  | arr [] => "[]"
  | arr (item :: rest) =>
    "[" ++ style.lineBreak (depth + 1) ++ write style (depth + 1) item
      ++ writeItems style (depth + 1) rest ++ style.lineBreak depth ++ "]"
  | obj [] => "\x7b\x7d"
  | obj ((key, value) :: rest) =>
    "\x7b" ++ style.lineBreak (depth + 1) ++ quote key ++ style.colon
      ++ write style (depth + 1) value ++ writeMembers style (depth + 1) rest
      ++ style.lineBreak depth ++ "\x7d"

/-- The elements after the first, each behind a comma. -/
def writeItems (style : Style) (depth : Nat) : List Json → String
  | [] => ""
  | item :: rest =>
    "," ++ style.lineBreak depth ++ write style depth item ++ writeItems style depth rest

def writeMembers (style : Style) (depth : Nat) : List (String × Json) → String
  | [] => ""
  | (key, value) :: rest =>
    "," ++ style.lineBreak depth ++ quote key ++ style.colon ++ write style depth value
      ++ writeMembers style depth rest

end

def compact (value : Json) : String :=
  value.write ⟨none⟩ 0

/-- The text with one entry a line, indented by two spaces. -/
def pretty (value : Json) : String :=
  value.write ⟨some 2⟩ 0

end EventPayload.Json
