import EventPayload.Proofs.Failures

/-!
# What custom events forward

A custom call sends along whatever an event has among its properties, and among the attributes in
these.  Both may hold anything, also entries that are named like the objects they stand in, like the
name of the call, or like the places where the fields of a customer go.  This file says which of
several values for one key is sent.

* `Friendbuy.get?_source_of_undeclared`, `Friendbuy.get?_source_attributes` — **the source** of a
  custom call: a property wins over an attribute, and the two objects are not taken for entries
  themselves.
* `Friendbuy.customEvent_slot` — what the declared fields write: single keys at the top, but neither
  the name of the call nor the attributes.
* `Friendbuy.Forwards` — **what a custom call holds**, key by key.
* `Friendbuy.perform_forwards` — every custom call holds that.
-/

namespace EventPayload.Friendbuy

/-! ## The source of a custom call -/

section Source

variable {members resolved : Record}
  (hpayload : trackCustomEvent.payload (.obj members) = .ok resolved)

include hpayload

lemma nested_eventProperties : Record.nested resolved eventProperties = properties members := by
  have hplace : Entries.get? trackCustomEvent.places eventProperties = some "$.properties" := rfl
  have hread : Entries.get? resolved eventProperties = Entries.get? members "properties" := by
    rw [trackCustomEvent_looksUp.get?_payload hpayload, hplace, Option.bind_some]
    exact Query.valueAt?_member (by decide) members
  rw [properties, Record.nested, Record.nested, hread]

/-- Reading the record after the properties were hoisted, which drops the object that held them. -/
lemma get?_hoist_eventProperties (key : String) :
    Entries.get? (Record.hoist resolved eventProperties) key
      = (if eventProperties = key then none else Entries.get? resolved key).or
          (Entries.get? (properties members) key) := by
  rw [Preparation.get?_hoist, nested_eventProperties hpayload]

/-- Hoisting the properties leaves the attributes as they were: the record has read them there. -/
lemma get?_hoist_attributes :
    Entries.get? (Record.hoist resolved eventProperties) attributes
      = Entries.get? (properties members) attributes := by
  have hread : Entries.get? resolved attributes = Entries.get? (properties members) attributes :=
    get?_of_property trackCustomEvent_looksUp hpayload rfl (by decide) (by decide)
  rw [get?_hoist_eventProperties hpayload, if_neg (by decide), hread, Option.or_self]

/-- **Reading the source**: first the hoisted record, then the attributes of the event. -/
lemma get?_source {key : String} (hkey : key ≠ "name") :
    Entries.get? (trackCustomEvent.prepare resolved) key
      = (if attributes = key then none
          else Entries.get? (Record.hoist resolved eventProperties) key).or
          (Entries.get? (ownAttributes members) key) := by
  have hattributes : Record.nested (Record.hoist resolved eventProperties) attributes
      = ownAttributes members := by
    rw [ownAttributes, Record.nested, Record.nested, get?_hoist_attributes hpayload]
  rw [← hattributes, ← get?_prepareCustomer _ hkey]
  rfl

/-- **The attributes of the source** are an entry of that name among the attributes. -/
theorem get?_source_attributes :
    Entries.get? (trackCustomEvent.prepare resolved) attributes
      = Entries.get? (ownAttributes members) attributes := by
  rw [get?_source hpayload (by decide), if_pos rfl, Option.none_or]

/-- **A property wins over an attribute** for a key that no directive reads. -/
theorem get?_source_of_undeclared {key : String}
    (hkey : key ∉ Entries.keys customEventMapping.rules) (hne : key ≠ attributes) :
    Entries.get? (trackCustomEvent.prepare resolved) key
      = (Entries.get? (properties members) key).or (Entries.get? (ownAttributes members) key) := by
  -- what the directives read is declared, but for the two objects that are hoisted
  have hplaces : ∀ place ∈ Entries.keys trackCustomEvent.places,
      place = eventProperties ∨ place = attributes ∨
        place ∈ Entries.keys customEventMapping.rules := by
    decide
  have hname : key ≠ "name" := by
    rintro rfl
    exact hkey (by decide)
  have hunread : (if eventProperties = key then none else Entries.get? resolved key) = none := by
    split
    · rfl
    · next hproperties =>
      have hplace : key ∉ Entries.keys trackCustomEvent.places := fun hmem =>
        (hplaces key hmem).elim (fun h => hproperties h.symm) (fun h => h.elim hne hkey)
      rw [trackCustomEvent_looksUp.get?_payload hpayload,
        (Entries.get?_eq_none_iff _ _).mpr hplace, Option.bind_none]
  rw [get?_source hpayload hname, if_neg (Ne.symm hne), get?_hoist_eventProperties hpayload,
    hunread, Option.none_or]

end Source

/-! ## What is declared -/

/-- **What declared fields write**: keys at the top, but neither the name nor the attributes. -/
lemma customEvent_slot {source : Record} {field : String} {slot : Slot} {value : Json}
    (hc : Contributes customEventMapping.rules source field slot value) :
    slot = .top slot.root ∧ slot.root ∉ [eventType, attributes] := by
  have hslots : ∀ entry ∈ customEventMapping.rules, ∀ slot ∈ entry.2.slot? entry.1,
      slot = .top slot.root ∧ slot.root ∉ [eventType, attributes] := by
    decide
  obtain ⟨rule, -, hrule, -, hslot, -⟩ := hc
  exact hslots _ (Entries.mem_of_get? hrule) slot hslot

lemma customEvent_unwritten (key : String) (hkey : key ∈ [eventType, attributes]) (source : Record)
    (field : String) (value : Json) :
    ¬ Contributes customEventMapping.rules source field (.top key) value :=
  fun hc => (customEvent_slot hc).2 hkey

/-! ## What is sent -/

/-- **What a custom call holds**, read off the event and the source record of the call. -/
structure Forwards (members source : Record) (call : Call) : Prop where
  /-- The call goes by the event's own name, without surrounding blanks. -/
  named : ∃ s, Entries.get? members "event" = some (.str s) ∧ call.event = Text.trim s
  nonempty : call.event ≠ ""
  /-- The name is not among the data, whatever the event has under that key. -/
  untyped : "eventType" ∉ Entries.keys call.data
  /-- What a declared field writes stands there. -/
  written : ∀ {field key value},
    Contributes customEventMapping.rules source field (.top key) value →
    Entries.get? call.data key = some value
  /-- For other keys, the property wins over the attribute. -/
  forwarded : ∀ {key}, key ∉ Entries.keys customEventMapping.rules → key ≠ "friendbuyAttributes" →
    (∀ field value, ¬ Contributes customEventMapping.rules source field (.top key) value) →
    Entries.get? call.data key
      = (Entries.get? (properties members) key).or (Entries.get? (ownAttributes members) key)
  /-- The object of attributes is not sent, but an entry of its name in it is. -/
  attributed : Entries.get? call.data "friendbuyAttributes"
    = Entries.get? (ownAttributes members) "friendbuyAttributes"

/-- The data that the mapping of custom events makes. -/
lemma customEvent_renders {event : Json} {resolved data : Record}
    (hpayload : trackCustomEvent.payload event = .ok resolved)
    (hrun : customEventMapping.run (trackCustomEvent.prepare resolved) = .ok data) :
    Renders customEventMapping.rules .pass (trackCustomEvent.prepare resolved) data := by
  obtain ⟨rendered, happly, rfl⟩ := (Mapping.run_eq_ok_iff _ _ _).mp hrun
  have hdistinct := Preparation.distinct_runAll (trackCustomEvent_looksUp.distinct_payload hpayload)
    (.hoist eventProperties :: prepareCustomer)
  exact apply_renders hdistinct customEventMapping.lawful.uncontested happly

/-- A key that no declared field writes is sent as it stands in the source, if it is not
declared. -/
lemma get?_of_unwritten {source data : Record}
    (hrenders : Renders customEventMapping.rules .pass source data) {key : String}
    (hunwritten : ∀ field value,
      ¬ Contributes customEventMapping.rules source field (.top key) value) :
    Entries.get? data key
      = if key ∈ Entries.keys customEventMapping.rules then none else Entries.get? source key := by
  have hroot : ∀ field slot value, Contributes customEventMapping.rules source field slot value →
      slot.root ≠ key := by
    rintro field slot value hc rfl
    rw [(customEvent_slot hc).1] at hc
    exact hunwritten field value hc
  rw [hrenders.rest hroot]
  simp only [true_and, Entries.get?_eq_none_iff, ite_not]

/-- **Every custom call goes by the event's own name, and sends what the event holds**: what
declared fields write, then properties, then attributes. -/
theorem perform_forwards {event : Json} {call : Call}
    (h : trackCustomEvent.perform event = .ok call) :
    ∃ members source, event = .obj members ∧ trackCustomEvent.source event = .ok source ∧
      Forwards members source call := by
  cases event with
  | obj members =>
    obtain ⟨resolved, hpayload⟩ := trackCustomEvent_looksUp.exists_payload (.obj members)
    obtain ⟨hname, hrun⟩ := (trackCustomEvent.perform_eq_ok_iff hpayload call).mp h
    have hrenders := customEvent_renders hpayload hrun
    obtain ⟨s, hevent, htrim, hne⟩ := (ownName_eq_ok_iff resolved call.event).mp hname
    rw [get?_eventType hpayload] at hevent
    refine ⟨members, trackCustomEvent.prepare resolved, rfl, ?_, ⟨s, hevent, htrim.symm⟩, hne, ?_,
      hrenders.top, ?_, ?_⟩
    · rw [Action.source, hpayload]
      rfl
    · have hread := get?_of_unwritten hrenders (customEvent_unwritten eventType (by decide) _)
      rw [if_pos (by decide)] at hread
      exact (Entries.get?_eq_none_iff _ eventType).mp hread
    · intro key hkey hne hunwritten
      rw [get?_of_unwritten hrenders hunwritten, if_neg hkey]
      exact get?_source_of_undeclared hpayload hkey hne
    · have hread := get?_of_unwritten hrenders (customEvent_unwritten attributes (by decide) _)
      rw [if_neg (by decide)] at hread
      exact hread.trans (get?_source_attributes hpayload)
  | _ => cases h

/-- An event whose properties and attributes are named like each other, and like all that a call is
made of. -/
def sharedList : Json :=
  .obj [("event", .str " List Shared\n"), ("userId", .str "7"),
    ("properties", .obj [("id", .str "9"), ("eventType", .str "list"), ("eventProperties", .arr []),
      ("size", .null), ("friendbuyAttributes", .obj [("eventType", .str "gift"), ("size", .str "L"),
        ("friendbuyAttributes", .bool true), ("shop", .str "north")])])]

def sharedCall : Call :=
  ⟨"List Shared", [("id", .str "7"), ("eventProperties", .arr []), ("size", .null),
    ("friendbuyAttributes", .bool true), ("shop", .str "north")]⟩

theorem sharedList_forwarded :
    trackCustomEvent.perform sharedList = .ok sharedCall ∧
      ∃ members source, sharedList = .obj members ∧
        trackCustomEvent.source sharedList = .ok source ∧ Forwards members source sharedCall := by
  have hcall : trackCustomEvent.perform sharedList = .ok sharedCall := rfl
  exact ⟨hcall, perform_forwards hcall⟩

end EventPayload.Friendbuy
