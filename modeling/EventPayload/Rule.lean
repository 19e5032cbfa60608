import EventPayload.Coercion
import EventPayload.Slot

/-!
# Rules

A rule says what becomes of one field of a source record; a ruleset gives rules to fields by name.

* `Rule` — the five kinds of rule.
* `Rule.slot?` — where a rule writes.
* `Ruleset` — rules by field name.
* `Leftovers` — what becomes of fields without a rule.
* `ShapeMismatch` — a value that a rule for lists of objects cannot take.
-/

namespace EventPayload

/-- **What becomes of a field.** -/
inductive Rule where
  /-- Nothing is written. -/
  | drop
  /-- The value is written under the field's own name. -/
  | copy
  /-- The value is written at a slot. -/
  | moveTo (slot : Slot)
  /-- The coerced value is written at a slot, or else under the field's own name. -/
  | coerce (slot : Option Slot) (coercion : Coercion)
  /-- The value is a list of objects, each laid over the defaults and put through the rules. -/
  | each (defaults : List (String × Json)) (rules : List (String × Rule))

abbrev Ruleset := Entries Rule

namespace Rule

/-- **The slot of a rule** for the field of the given name. -/
def slot? (field : String) : Rule → Option Slot
  | drop => none
  | copy => some (.top field)
  | moveTo slot => some slot
  | coerce slot _ => some (slot.getD (.top field))
  | each _ _ => some (.top field)

def isEach : Rule → Bool
  | each _ _ => true
  | _ => false

end Rule

/-- What becomes of the fields that have no rule. -/
inductive Leftovers where
  /-- They are left out of the payload. -/
  | drop
  /-- They are copied to the top of the payload, where no rule has written. -/
  | pass
deriving DecidableEq

/-- **A value of the wrong shape** for a rule that takes a list of objects. -/
inductive ShapeMismatch where
  /-- The field's value is not a list. -/
  | notList (field : String) (found : Json.Kind)
  /-- An element of the list is not an object. -/
  | notObject (found : Json.Kind)
deriving DecidableEq

def ShapeMismatch.message : ShapeMismatch → String
  | notList field found => field ++ ": expected array, found " ++ found.name
  | notObject found => "array element: expected object, found " ++ found.name

end EventPayload
