import EventPayload.Entries

/-!
# TOML values

The values of TOML documents, as far as settings need them: numbers and moments are told apart
from other values but not kept.

* `Toml.Origin` — how a table came about.
* `Toml.Value`, `Toml.Table` — values, and the members of a table.
* `Toml.Path` — a key with dots.
* `Toml.Table.reach` — a change to a table somewhere below another one.
* `Toml.Table.assign`, `Toml.Table.declare`, `Toml.Table.append` — what the statements of a document
  do to a table.

A document may come back to a table, and the origin of the table decides whether it may be added
to: one in braces never, one with a header of its own only by further headers.
-/

namespace EventPayload.Toml

/-- **How a table came about.** -/
inductive Origin where
  /-- By a header of its own. -/
  | declared
  /-- On the way to a header further down. -/
  | implied
  /-- On the way to the last part of a key with dots. -/
  | dotted
  /-- By braces. -/
  | closed
deriving DecidableEq

/-- **A value.** -/
inductive Value where
  | text (s : String)
  | boolean (b : Bool)
  | number
  | moment
  | list (items : List Value)
  | table (origin : Origin) (members : List (String × Value))
  /-- The tables of a repeated header. -/
  | tables (latest : List (String × Value)) (earlier : List (List (String × Value)))

abbrev Table := Entries Value

/-- **A key**, in the parts between its dots. -/
structure Path where
  outer : List String
  last : String

def Path.parts (path : Path) : List String :=
  path.outer ++ [path.last]

def Path.ofParts? (parts : List String) : Option Path :=
  parts.getLast?.map fun last => ⟨parts.dropLast, last⟩

namespace Table

/-- **Going down.**  Changes the table at the end of a path, creating the tables on the way; where
a header was repeated, the way goes through its latest table.  A dotted way may not enter a table
that has a header of its own. -/
def reach (dotted : Bool) (change : Origin → Table → Option Table) :
    List String → Origin → Table → Option Table
  | [], origin, table => change origin table
  | key :: rest, _, table =>
    match Entries.get? table key with
    | none => do
      let origin := if dotted then Origin.dotted else .implied
      let inner ← reach dotted change rest origin []
      return Entries.insert table key (.table origin inner)
    | some (.table origin inner) =>
      if origin = .closed ∨ dotted ∧ origin = .declared then none
      else do
        let inner ← reach dotted change rest origin inner
        return Entries.insert table key (.table origin inner)
    | some (.tables latest earlier) => do
      let latest ← reach dotted change rest .declared latest
      return Entries.insert table key (.tables latest earlier)
    | some _ => none

/-- **A key and a value.**  The key must be new; if it has dots, the table that holds its last part
must have come about by dots as well. -/
def assign (path : Path) (value : Value) (table : Table) : Option Table :=
  reach true (fun origin inner =>
      if (path.outer = [] ∨ origin = .dotted) ∧ !Entries.contains inner path.last then
        some (Entries.insert inner path.last value)
      else none)
    path.outer .declared table

/-- **A header.**  The table must be new, or implied by an earlier header. -/
def declare (path : Path) (table : Table) : Option Table :=
  reach false (fun _ inner =>
      match Entries.get? inner path.last with
      | none => some (Entries.insert inner path.last (.table .declared []))
      | some (.table .implied members) =>
        some (Entries.insert inner path.last (.table .declared members))
      | some _ => none)
    path.outer .declared table

/-- **A repeated header** adds one more table. -/
def append (path : Path) (table : Table) : Option Table :=
  reach false (fun _ inner =>
      match Entries.get? inner path.last with
      | none => some (Entries.insert inner path.last (.tables [] []))
      | some (.tables latest earlier) =>
        some (Entries.insert inner path.last (.tables [] (latest :: earlier)))
      | some _ => none)
    path.outer .declared table

end Table

end EventPayload.Toml
