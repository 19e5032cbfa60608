import EventPayload.Toml.Word

/-!
# Keys and values in TOML

* `Toml.skipLines?`, `Toml.endsLine` — what may stand between values and behind them.
* `Toml.keyParts?`, `Toml.path?` — keys with dots.
* `Toml.items?`, `Toml.pairs?` — what stands in brackets and in braces.
* `Toml.value?` — a value, containers included.

Containers nest less than `maxDepth` deep, and a key has fewer than `maxDepth` parts, so reading
recurses on how deep it may still go.
-/

namespace EventPayload.Toml

/-- The nesting of containers, and the number of parts of a key, stay below this. -/
def maxDepth : Nat := 80

/-! ## Blanks -/

/-- What follows blanks, line breaks and comments. -/
def skipLines? (comment : Bool) : List Char → Option (List Char)
  | [] => some []
  | c :: rest =>
    if c = '\n' then skipLines? false rest
    else if comment then if isPlain c then skipLines? true rest else none
    else if isGap c then skipLines? false rest
    else if c = '#' then skipLines? true rest
    else some (c :: rest)

/-- Whether nothing but a comment follows on the line. -/
def endsLine (cs : List Char) : Bool :=
  (skipGap cs).head?.all fun c => c = '\n' || c = '#'

/-! ## Keys -/

def isKeyChar (c : Char) : Bool :=
  c.isAlphanum || c = '_' || c = '-'

def keyPart? (cs : List Char) : Option (String × List Char) :=
  match line? cs with
  | some part => some part
  | none =>
    let word := cs.takeWhile isKeyChar
    if word.isEmpty then none else some (String.ofList word, cs.dropWhile isKeyChar)

/-- The parts of a key, of which there are at most `limit`. -/
def keyParts? : Nat → Reading (List String)
  | 0 => fun _ => none
  | limit + 1 => fun cs => do
    let (part, rest) ← keyPart? (skipGap cs)
    match skipGap rest with
    | '.' :: rest => do
      let (parts, rest) ← keyParts? limit rest
      return (part :: parts, rest)
    | rest => return ([part], rest)

/-- **A key**, with the blanks around it. -/
def path? : Reading Path := fun cs => do
  let (parts, rest) ← keyParts? (maxDepth - 1) cs
  return (← Path.ofParts? parts, rest)

/-! ## Values -/

/-- The items of a list behind its opening bracket, up to `fuel` of them.  A comma may follow the
last one. -/
def items? (item : Reading Value) : Nat → Reading (List Value)
  | 0 => fun _ => none
  | fuel + 1 => fun cs => do
    match ← skipLines? false cs with
    | ']' :: rest => return ([], rest)
    | start => do
      let (value, rest) ← item start
      match ← skipLines? false rest with
      | ']' :: rest => return ([value], rest)
      | ',' :: rest => do
        let (values, rest) ← items? item fuel rest
        return (value :: values, rest)
      | _ => none

/-- The pairs of a table in braces, up to `fuel` of them, added to those already read.  Line breaks
and a comma behind the last pair are not admitted. -/
def pairs? (item : Reading Value) : Nat → Table → Reading Table
  | 0, _ => fun _ => none
  | fuel + 1, table => fun cs => do
    match ← path? cs with
    | (path, '=' :: rest) => do
      let (value, rest) ← item (skipGap rest)
      let table ← table.assign path value
      match skipGap rest with
      | '\x7d' :: rest => return (table, rest)
      | ',' :: rest => pairs? item fuel table rest
      | _ => none
    | _ => none

/-- A table in braces behind the opening one. -/
def braces? (item : Reading Value) : Reading Table := fun cs =>
  match skipGap cs with
  | '\x7d' :: rest => some ([], rest)
  | start => pairs? item cs.length [] start

def simple? : Reading Value := fun cs =>
  match cs.head? with
  | some '"' | some '\'' => (literal? cs).map fun read => (.text read.1, read.2)
  | _ => word? cs

/-- **A value** with containers nested up to `depth` deep. -/
def value? : Nat → Reading Value
  | 0 => simple?
  | depth + 1 => fun cs =>
    match cs with
    | '[' :: rest =>
      (items? (value? depth) (rest.length + 1) rest).map fun read => (.list read.1, read.2)
    | '\x7b' :: rest =>
      (braces? (value? depth) rest).map fun read => (.table .closed read.1, read.2)
    | cs => simple? cs

end EventPayload.Toml
