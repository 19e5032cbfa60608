import EventPayload.Directive
import EventPayload.Mapping.Basic
import EventPayload.Preparation

/-!
# Actions

An action turns an event into a tracking call.  It is plain data: where its fields come from, how
they are mapped, how the call is named and how the record is prepared.

* `Action` — such a description.
* `Call` — a named payload.
* `Action.Failure` — why an event yields no call.
* `Mapping.misshapen?` — the first field whose value a rule for lists cannot take.
* `Action.perform` — all stages in turn: directives, name, preparation, the check of lists, mapping.
-/

namespace EventPayload

/-- **A tracking call**: the partner's name for the event, and the payload. -/
structure Call where
  event : String
  data : Record

def Call.toJson (call : Call) : Json :=
  .obj [("event", .str call.event), ("data", .obj call.data)]

/-- **Why an event yields no call.** -/
inductive Action.Failure where
  /-- The event is not an object. -/
  | notObject
  /-- A field that the call's name needs is absent or of another type. -/
  | missingField (name : String)
  /-- A field that is mapped as a list of objects is something else. -/
  | invalidField (name : String)
  /-- A directive names an invalid path. -/
  | unresolved (cause : InvalidPath)
  /-- The mapping met a value of the wrong shape. -/
  | misshapen (cause : ShapeMismatch)
deriving DecidableEq

def Action.Failure.message : Action.Failure → String
  | notObject => "event must be a JSON object"
  | missingField name => "required field '" ++ name ++ "' is missing"
  | invalidField name => "field '" ++ name ++ "' must be an array of objects"
  | unresolved cause => "field resolution failed: " ++ cause.message
  | misshapen cause => cause.message

/-- **An action.** -/
structure Action where
  name : String
  /-- One directive for each field of the source record. -/
  directives : Record
  mapping : Mapping
  /-- The partner's name for the event, read off the source record. -/
  eventName : Record → Except Action.Failure String
  /-- Reshapes the source record before it is mapped. -/
  prepare : Record → Record := id

/-! ## The check of lists -/

/-- Whether a value may stand for a list of objects; a null stands for an absent one. -/
def Json.isObjectList : Json → Bool
  | .null => true
  | .arr items => items.all Json.isObject
  | _ => false

/-- Whether a field is mapped as a list of objects without being one. -/
def Mapping.refuses (mapping : Mapping) (entry : String × Json) : Bool :=
  (Entries.get? mapping.rules entry.1).any Rule.isEach && !entry.2.isObjectList

/-- **The check of lists.**  The first field of a source record that the mapping refuses. -/
def Mapping.misshapen? (mapping : Mapping) (source : Record) : Option String :=
  (source.find? mapping.refuses).map Prod.fst

def Mapping.checkLists (mapping : Mapping) (source : Record) : Except Action.Failure Unit :=
  match mapping.misshapen? source with
  | some field => .error (.invalidField field)
  | none => .ok ()

/-! ## Performing an action -/

namespace Action

def payload (action : Action) (event : Json) : Except Failure Record :=
  (Directive.resolveRecord action.directives event).mapError .unresolved

def mapped (action : Action) (source : Record) : Except Failure Record :=
  (action.mapping.run source).mapError .misshapen

/-- **Performing an action** on an event. -/
def perform (action : Action) (event : Json) : Except Failure Call := do
  if !event.isObject then throw .notObject
  let payload ← action.payload event
  let name ← action.eventName payload
  let source := action.prepare payload
  action.mapping.checkLists source
  let data ← action.mapped source
  return ⟨name, data⟩

end Action

end EventPayload
