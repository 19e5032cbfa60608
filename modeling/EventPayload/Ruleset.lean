import EventPayload.Rule

/-!
# Putting a record through rules

Each field of the source meets its fate on its own; the payload is then put together from the
fates, first what the rules write, then what is left over.

* `Fate` — what becomes of one field.
* `assemble` — the payload of a source, given what decides the fate of a field.
* `overlaidEach` — the elements of a list, each laid over the defaults and assembled.
* `Rule.value`, `Ruleset.fate` — what a rule makes of a value; a rule for lists goes through its
  own ruleset again, so the two are defined together.
* `Ruleset.apply`, `Ruleset.applyEach` — the payload of a record, and of a list of records.

The order of the source decides the order of the payload and, where several values have a wrong
shape, which of them is reported.
-/

namespace EventPayload

/-- **What becomes of one field.** -/
inductive Fate where
  /-- No rule names it. -/
  | leftover
  /-- Its rule writes nothing. -/
  | silent
  /-- A value is written at a slot. -/
  | written (slot : Slot) (value : Json)

/-- A field of the source together with its fate. -/
structure Decided where
  field : String
  value : Json
  fate : Fate

namespace Decided

def writing? (d : Decided) : Option (Slot × Json) :=
  match d.fate with
  | .written slot value => some (slot, value)
  | _ => none

/-- The field itself, if no rule names it. -/
def leftover? (d : Decided) : Option (String × Json) :=
  match d.fate with
  | .leftover => some (d.field, d.value)
  | _ => none

end Decided

/-! ## Assembling a payload -/

/-- The fates of all fields, in the order of the source. -/
def fates (fate : String → Json → Except ShapeMismatch Fate) (source : Record) :
    Except ShapeMismatch (List Decided) :=
  source.mapM fun entry => (fate entry.1 entry.2).map fun f => ⟨entry.1, entry.2, f⟩

/-- The record that a list of writes leaves behind. -/
def writeAll (writes : List (Slot × Json)) (tree : Record) : Record :=
  writes.foldl (fun tree w => w.1.put tree w.2) tree

/-- The payload that fates amount to.  Fields without a rule never replace what rules wrote. -/
def gather (leftovers : Leftovers) (decided : List Decided) : Record :=
  let written := writeAll (decided.filterMap Decided.writing?) []
  match leftovers with
  | .drop => written
  | .pass => Entries.addMissing written (decided.filterMap Decided.leftover?)

/-- **Assembling.**  The payload of a source record. -/
def assemble (fate : String → Json → Except ShapeMismatch Fate) (leftovers : Leftovers)
    (source : Record) : Except ShapeMismatch Record :=
  (fates fate source).map (gather leftovers)

/-- **Element by element.**  Each object is laid over the defaults and then assembled. -/
def overlaidEach (assemble : Record → Except ShapeMismatch Record) (defaults : Record)
    (items : List Json) : Except ShapeMismatch (List Json) :=
  items.mapM fun item =>
    match item with
    | .obj members => (assemble (Entries.overlay defaults members)).map .obj
    | other => .error (.notObject other.kind)

/-! ## Rules at work -/

/-- The fate of a field whose rule has the given slot and makes the given value. -/
def Fate.of (slot : Option Slot) (value : Option Json) : Fate :=
  match slot, value with
  | some slot, some value => .written slot value
  | _, _ => .silent

mutual

/-- **What a rule makes of a value.**  A rule for lists takes a null for an absent list, and an
empty list writes nothing. -/
def Rule.value (field : String) (value : Json) : Rule → Except ShapeMismatch (Option Json)
  | .drop => .ok none
  | .copy => .ok (some value)
  | .moveTo _ => .ok (some value)
  | .coerce _ coercion => .ok (coercion.apply value)
  | .each defaults rules =>
    match value with
    | .arr items =>
      (overlaidEach (assemble (fun f v => Ruleset.fate f v rules) .drop) defaults items).map
        fun mapped => if mapped.isEmpty then none else some (.arr mapped)
    | .null => .ok none
    | other => .error (.notList field other.kind)

/-- **The fate of a field** under a ruleset. -/
def Ruleset.fate (field : String) (value : Json) :
    List (String × Rule) → Except ShapeMismatch Fate
  | [] => .ok .leftover
  | (name, rule) :: rest =>
    if name = field then (Rule.value field value rule).map (Fate.of (rule.slot? field))
    else Ruleset.fate field value rest

end

/-- **Applying a ruleset** to a record. -/
def Ruleset.apply (rules : Ruleset) (leftovers : Leftovers) (source : Record) :
    Except ShapeMismatch Record :=
  assemble (fun field value => Ruleset.fate field value rules) leftovers source

/-- Applying a ruleset to every element of a list, over defaults; fields without a rule are left
out. -/
def Ruleset.applyEach (rules : Ruleset) (defaults : Record) (items : List Json) :
    Except ShapeMismatch (List Json) :=
  overlaidEach (rules.apply .drop) defaults items

theorem Ruleset.fate_eq (rules : Ruleset) (field : String) (value : Json) :
    Ruleset.fate field value rules
      = match Entries.get? rules field with
        | none => .ok .leftover
        | some rule => (rule.value field value).map (Fate.of (rule.slot? field)) := by
  induction rules with
  | nil => simp [Ruleset.fate]
  | cons entry rest ih =>
    obtain ⟨name, rule⟩ := entry
    by_cases h : name = field <;> simp [Ruleset.fate, Entries.get?, h, ih]

theorem Rule.value_each_arr (field : String) (defaults : Record) (rules : Ruleset)
    (items : List Json) :
    (Rule.each defaults rules).value field (.arr items)
      = (rules.applyEach defaults items).map
          fun mapped => if mapped.isEmpty then none else some (.arr mapped) := by
  rw [Rule.value]
  rfl

end EventPayload
