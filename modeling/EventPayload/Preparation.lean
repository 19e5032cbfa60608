import EventPayload.Json.Basic
import EventPayload.Text.Blank

/-!
# Preparing a record

Reshaping of a whole record before its fields are mapped.

* `Record.fillName` — a display name made of the parts of a name.
* `Record.hoist` — the entries of a nested object moved to the top.
* `Preparation` — the two as data, so that lists of them can be carried out in turn.
-/

namespace EventPayload

namespace Record

/-! ## Display names -/

/-- Whether a value counts as a name: a text that is not blank, or any other value but null. -/
def isName : Option Json → Bool
  | some (.str s) => !Text.isBlank s
  | some .null | none => false
  | some _ => true

/-- A part of a name: the text at a key without surrounding blanks, unless it is blank. -/
def namePart? (record : Record) (key : String) : Option String := do
  let s ← (← Entries.get? record key).asText?
  if Text.isBlank s then none else some (Text.trim s)

/-- The parts that a name is made of, the first name before the last. -/
def nameParts (record : Record) : List String :=
  ["firstName", "lastName"].filterMap (namePart? record)

/-- **Filling in the name.**  A record without a name gets its parts, joined by a space; a record
without parts stays as it is. -/
def fillName (record : Record) : Record :=
  if isName (Entries.get? record "name") then record
  else
    match nameParts record with
    | [] => record
    | parts => Entries.insert record "name" (.str (String.intercalate " " parts))

/-! ## Nested objects -/

/-- The entries of the object at a key; other kinds of value have none. -/
def nested (record : Record) (key : String) : Record :=
  ((Entries.get? record key).bind Json.asRecord?).getD []

/-- **Hoisting.**  The key goes, and the entries of its object come to the end of the record,
except those whose keys the record has already. -/
def hoist (record : Record) (key : String) : Record :=
  Entries.addMissing (Entries.erase record key) (nested record key)

end Record

/-- **A step of preparation.** -/
inductive Preparation where
  | fillName
  | hoist (key : String)

namespace Preparation

def run (record : Record) : Preparation → Record
  | fillName => Record.fillName record
  | hoist key => Record.hoist record key

def runAll (steps : List Preparation) (record : Record) : Record :=
  steps.foldl run record

end Preparation

end EventPayload
