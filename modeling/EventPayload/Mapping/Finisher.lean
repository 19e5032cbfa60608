import EventPayload.Json.Basic

/-!
# Finishing steps

Steps that run on a payload after the rules have done their work.

* `Finisher.require` — an object at the top must have a value under a given key, or it is removed
  as a whole: partial identity data is of no use to its receiver.
* `Finisher.assign` — a key at the top is set to a given value.
* `Finisher.custom` — any function of records.
* `Finisher.run`, `Finisher.runAll` — carrying out one step, or several in turn.
-/

namespace EventPayload

/-- **A finishing step.** -/
inductive Finisher where
  /-- The object at `object` is removed if it has nothing, or null, under `key`. -/
  | require (object key : String)
  /-- The value is written at `key`. -/
  | assign (key : String) (value : Json)
  /-- The record is handed to a function of the mapping's own. -/
  | custom (finish : Record → Record)

namespace Finisher

/-- Whether a record has an object at `object` that has nothing, or null, under `key`. -/
def lacks (record : Record) (object key : String) : Bool :=
  match Entries.get? record object with
  | some (.obj members) => (Entries.get? members key).all Json.isNull
  | _ => false

/-- **Carrying out a step.**  Other kinds of value than objects are left alone by `require`. -/
def run (record : Record) : Finisher → Record
  | require object key => if lacks record object key then Entries.erase record object else record
  | assign key value => Entries.insert record key value
  | custom finish => finish record

def runAll (steps : List Finisher) (record : Record) : Record :=
  steps.foldl run record

end Finisher

end EventPayload
