import EventPayload.Toml.Value

/-!
# TOML documents

* `Toml.Statement`, `Toml.statements?` — a document line by line.
* `Toml.Assembly` — the tables of the statements read so far.
* `Toml.parse?` — the table that a document describes.

Line breaks are made the same before anything is read, so that everything after that knows one line
break only.
-/

namespace EventPayload.Toml

/-! ## Statements -/

/-- **A statement.** -/
inductive Statement where
  /-- A key and its value. -/
  | assign (path : Path) (value : Value)
  /-- The header of a table. -/
  | declare (path : Path)
  /-- The header of one more table of several. -/
  | append (path : Path)

/-- A statement, without the rest of its line. -/
def statement? : Reading Statement
  | '[' :: '[' :: cs => do
    match ← path? cs with
    | (path, ']' :: ']' :: rest) => some (.append path, rest)
    | _ => none
  | '[' :: cs => do
    match ← path? cs with
    | (path, ']' :: rest) => some (.declare path, rest)
    | _ => none
  | cs => do
    match ← path? cs with
    | (path, '=' :: rest) => do
      let (value, rest) ← value? (maxDepth - 1) (skipGap rest)
      return (.assign path value, rest)
    | _ => none

/-- The statements of a document, up to `fuel` of them. -/
def statements? : Nat → List Char → Option (List Statement)
  | 0, _ => none
  | fuel + 1, cs => do
    match ← skipLines? false cs with
    | [] => return []
    | start => do
      let (statement, rest) ← statement? start
      if endsLine rest then return statement :: (← statements? fuel rest) else none

/-! ## Documents -/

/-- The tables read so far, and the way to the one that keys go to. -/
structure Assembly where
  root : Table
  current : List String

/-- Keys go to the table that the last header has named. -/
def Assembly.assign (assembly : Assembly) (path : Path) (value : Value) : Option Assembly :=
  let change (_ : Origin) (table : Table) := table.assign path value
  (Table.reach false change assembly.current .declared assembly.root).map
    fun root => ⟨root, assembly.current⟩

/-- **One statement.** -/
def Assembly.step (assembly : Assembly) : Statement → Option Assembly
  | .assign path value => assembly.assign path value
  | .declare path => (assembly.root.declare path).map fun root => ⟨root, path.parts⟩
  | .append path => (assembly.root.append path).map fun root => ⟨root, path.parts⟩

def ofStatements? (statements : List Statement) : Option Table :=
  (statements.foldlM Assembly.step ⟨[], []⟩).map Assembly.root

/-- Line breaks of two characters as one.  A carriage return alone is not admitted. -/
def unifyBreaks? : List Char → Option (List Char)
  | [] => some []
  | '\r' :: '\n' :: rest => (unifyBreaks? rest).map ('\n' :: ·)
  | '\r' :: _ => none
  | c :: rest => (unifyBreaks? rest).map (c :: ·)

/-- The characters behind a byte order mark, if there is one. -/
def dropMark : List Char → List Char
  | '\ufeff' :: cs => cs
  | cs => cs

/-- **Reading a document.** -/
def parse? (text : String) : Option Table := do
  let cs ← unifyBreaks? (dropMark text.toList)
  ofStatements? (← statements? (cs.length + 1) cs)

end EventPayload.Toml
