import EventPayload.Friendbuy.Customer

/-!
# Friendbuy custom events

Any other event is forwarded under its own name.  The name travels as the name of the call, not in
its data; the event's properties become fields of the data.

* `Friendbuy.ownName` — the name that a custom event goes by.
* `Friendbuy.trackCustomEvent` — the call.
-/

namespace EventPayload.Friendbuy

def eventType : String := "eventType"

def eventProperties : String := "eventProperties"

/-- **The name of a custom event**, without surrounding blanks; it must be a text that is not
blank. -/
def ownName (payload : Record) : Except Action.Failure String :=
  match (Entries.get? payload eventType).bind Json.asText? with
  | some s => if Text.isBlank s then .error (.missingField eventType) else .ok (Text.trim s)
  | none => .error (.missingField eventType)

def customEventMapping : Mapping where
  rules := [(eventType, .drop), ("deduplicationId", .copy)] ++ customerRules .top
  leftovers := .pass
  sound := by decide +kernel

/-- **The custom call** forwards an event under its own name. -/
def trackCustomEvent : Action where
  name := "trackCustomEvent"
  directives := lookUpAll [(eventType, "$.event"), (eventProperties, "$.properties"),
      ("deduplicationId", "$.properties.deduplicationId")]
    ++ identity "properties"
  mapping := customEventMapping
  eventName := ownName
  prepare := Preparation.runAll (.hoist eventProperties :: prepareCustomer)

end EventPayload.Friendbuy
