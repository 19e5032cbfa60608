import EventPayload.Catalog
import EventPayload.Proofs.Sources

/-!
# Actions that look their fields up

The fields of an action may come from directives of any kind.  Those of the calls in the catalog
are all looked up, at paths that no event refuses.  So these calls always get a record, what stands
in it can be read off the event, and they fail for two reasons only.

* `Action.places` — where the fields of an action are looked up.
* `Action.LooksUp` — **an action that looks up all of its fields**, at well-formed paths.
* `Action.LooksUp.exists_payload`, `Action.LooksUp.get?_payload` — its record is there for every
  event, and has at each key what the event has at the path for it.
* `Action.perform_eq_ok_iff`, `Action.perform_eq_error_iff` — **what an action makes of such a
  record, and when it fails**: it cannot name its call, or its mapping refuses a list.
* `Friendbuy.properties`, `Friendbuy.ownAttributes` — the two objects of an event whose entries may
  become fields, and what a record holds of them.
-/

namespace EventPayload

/-! ## Resolving without failure -/

namespace Directive

/-- Resolving goes through if every directive does. -/
lemma resolveMembers_ok {event : Json} {members : Entries Directive}
    (h : ∀ entry ∈ members, ∃ found, resolve event entry.2 = .ok found) :
    ∃ resolved, resolveMembers event members = .ok resolved := by
  induction members with
  | nil => exact ⟨[], rfl⟩
  | cons entry rest ih =>
    obtain ⟨key, directive⟩ := entry
    rw [List.forall_mem_cons] at h
    obtain ⟨⟨found, hfound⟩, hrest⟩ := h
    obtain ⟨others, hothers⟩ := ih hrest
    exact ⟨_, (resolveMembers_cons_eq_ok_iff key directive rest).mpr
      ⟨found, others, hfound, hothers, rfl⟩⟩

lemma ofMembers_lookUpAll (places : Entries String) :
    ofMembers (Friendbuy.lookUpAll places)
      = places.map fun place => (place.1, .path (.str place.2)) := by
  rw [ofMembers_eq_map, Friendbuy.lookUpAll, List.map_map]
  rfl

end Directive

/-! ## Actions -/

/-- The path of a directive that looks one up. -/
def Json.lookedUp? : Json → Option String
  | .obj [("@path", .str path)] => some path
  | _ => none

/-- **The places of an action**: for each field that is looked up, its path. -/
def Action.places (action : Action) : Entries String :=
  action.directives.filterMap fun entry => entry.2.lookedUp?.map fun path => (entry.1, path)

/-- **An action that looks up all of its fields**, each at a path that no event refuses. -/
structure Action.LooksUp (action : Action) (steps : List Preparation) : Prop
    extends action.Orderly steps where
  directives : action.directives = Friendbuy.lookUpAll action.places
  wellFormed : ∀ entry ∈ action.places, Query.WellFormed entry.2

namespace Action.LooksUp

variable {action : Action} {steps : List Preparation} (h : action.LooksUp steps)

include h

/-- **There is a record for every event.** -/
theorem exists_payload (event : Json) : ∃ resolved, action.payload event = .ok resolved := by
  have hresolve : ∃ resolved, Directive.resolveRecord action.directives event = .ok resolved := by
    refine Directive.resolveMembers_ok fun entry hentry => ?_
    rw [h.directives, Directive.ofMembers_lookUpAll] at hentry
    obtain ⟨place, hplace, rfl⟩ := List.mem_map.mp hentry
    exact ⟨_, Query.lookup_of_wellFormed (h.wellFormed place hplace) event⟩
  obtain ⟨resolved, hresolved⟩ := hresolve
  exact ⟨resolved, (mapError_eq_ok_iff _ _ _).mpr hresolved⟩

variable {event : Json} {resolved : Record} (hpayload : action.payload event = .ok resolved)

include hpayload

lemma distinct_payload : Entries.Distinct resolved :=
  Directive.distinct_resolveRecord h.distinct ((mapError_eq_ok_iff _ _ _).mp hpayload)

/-- **The record has at each key what the event has at the path for it.** -/
theorem get?_payload (key : String) :
    Entries.get? resolved key = (Entries.get? action.places key).bind (Query.valueAt? event) := by
  have hresolved := (mapError_eq_ok_iff _ _ _).mp hpayload
  have hread : Entries.get? action.directives key
      = (Entries.get? action.places key).map Friendbuy.lookUp := by
    rw [h.directives]
    exact Entries.get?_map Friendbuy.lookUp action.places key
  cases hplace : Entries.get? action.places key with
  | none =>
    rw [hplace, Option.map_none, Entries.get?_eq_none_iff] at hread
    rw [Option.bind_none, Entries.get?_eq_none_iff]
    have hkeys := Directive.keys_sublist_of_resolve hresolved
    rw [Directive.keys_ofMembers] at hkeys
    exact fun hmem => hread (hkeys.subset hmem)
  | some path =>
    rw [hplace, Option.map_some] at hread
    have hlookup := Directive.lookup_of_lookUp h.distinct hresolved hread
    have hpath := h.wellFormed _ (Entries.mem_of_get? hplace)
    rw [Query.lookup_of_wellFormed hpath] at hlookup
    exact (Except.ok.inj hlookup).symm

end Action.LooksUp

/-! ## What an action makes of its record -/

/-- Once there is a record, a call has the name that the record gives and the payload that the
mapping makes of it. -/
theorem Action.perform_eq_ok_iff (action : Action) {members resolved : Record}
    (hpayload : action.payload (.obj members) = .ok resolved) (call : Call) :
    action.perform (.obj members) = .ok call ↔
      action.eventName resolved = .ok call.event ∧
        action.mapping.run (action.prepare resolved) = .ok call.data := by
  rw [action.perform_of_isObject rfl, hpayload, Except.bind]
  simp only [bind_eq_ok_iff, map_eq_ok_iff]
  constructor
  · rintro ⟨name, hname, -, -, data, hdata, rfl⟩
    exact ⟨hname, (mapError_eq_ok_iff _ _ _).mp hdata⟩
  · rintro ⟨hname, hrun⟩
    -- what can be mapped passes the check of lists
    have hcheck : action.mapping.checkLists (action.prepare resolved) = .ok () := by
      rw [Mapping.checkLists_eq_ok_iff, Mapping.misshapen?_eq_none_iff]
      exact ⟨call.data, hrun⟩
    exact ⟨call.event, hname, (), hcheck, call.data, (mapError_eq_ok_iff _ _ _).mpr hrun, rfl⟩

/-- Once there is a record, an action fails because it cannot name its call, or because its mapping
refuses a field. -/
theorem Action.perform_eq_error_iff (action : Action) {members resolved : Record}
    (hpayload : action.payload (.obj members) = .ok resolved) (failure : Action.Failure) :
    action.perform (.obj members) = .error failure ↔
      action.eventName resolved = .error failure ∨
      (∃ name, action.eventName resolved = .ok name) ∧
        ∃ field, failure = .invalidField field ∧
          action.mapping.misshapen? (action.prepare resolved) = some field := by
  rw [action.perform_of_isObject rfl, hpayload, Except.bind]
  cases hname : action.eventName resolved with
  | error cause => simp [Except.bind]
  | ok name =>
    simp only [Except.bind, reduceCtorEq, Except.ok.injEq, exists_eq', true_and, false_or]
    rw [Mapping.checkLists]
    cases hfield : action.mapping.misshapen? (action.prepare resolved) with
    | some field => simp [eq_comm]
    | none =>
      have hcheck := (action.mapping.checkLists_eq_ok_iff _).mpr hfield
      obtain ⟨data, hdata⟩ := action.mapped_of_checkLists hcheck
      simp [hdata, Except.map]

/-! ## Objects of an event -/

namespace Friendbuy

/-- **The properties of an event**; none where they are not an object. -/
def properties (members : Record) : Record :=
  Record.nested members "properties"

/-- **The attributes among the properties** of an event; none where they are not an object. -/
def ownAttributes (members : Record) : Record :=
  Record.nested (properties members) attributes

/-- A path of two segments leads into an object of the event; a name is no position in a list. -/
lemma valueAt?_nested {path outer inner : String}
    (hpath : Query.Spells path [outer.toList, inner.toList])
    (hindex : Query.index? inner.toList = none) (members : Record) :
    Query.valueAt? (.obj members) path = Entries.get? (Record.nested members outer) inner := by
  rw [Query.valueAt?_of_spells hpath, Record.nested]
  cases hread : Entries.get? members outer with
  | none => simp [Query.descend?, Query.child?, hread]
  | some value =>
    cases value <;> simp [Query.descend?, Query.child?, hread, hindex, Json.asRecord?]

section Payload

variable {action : Action} {steps : List Preparation} (h : action.LooksUp steps)
  {members resolved : Record} (hpayload : action.payload (.obj members) = .ok resolved)

include h hpayload

/-- What a record holds of a property. -/
lemma get?_of_property {field path name : String}
    (hplace : Entries.get? action.places field = some path)
    (hpath : Query.Spells path ["properties".toList, name.toList])
    (hindex : Query.index? name.toList = none) :
    Entries.get? resolved field = Entries.get? (properties members) name := by
  rw [h.get?_payload hpayload, hplace, Option.bind_some]
  exact valueAt?_nested hpath hindex members

/-- The attributes of a record are those of the event. -/
lemma nested_attributes
    (hplace : Entries.get? action.places attributes = some "$.properties.friendbuyAttributes") :
    Record.nested resolved attributes = ownAttributes members := by
  have hread : Entries.get? resolved attributes = Entries.get? (properties members) attributes :=
    get?_of_property h hpayload hplace (by decide) (by decide)
  rw [Record.nested, hread]
  rfl

end Payload

/-! ## The calls of the catalog -/

lemma trackCustomer_looksUp : trackCustomer.LooksUp prepareCustomer :=
  ⟨⟨by decide, rfl⟩, rfl, by decide +kernel⟩

lemma trackPurchase_looksUp : trackPurchase.LooksUp prepareCustomer :=
  ⟨⟨by decide, rfl⟩, rfl, by decide +kernel⟩

lemma trackSignUp_looksUp : trackSignUp.LooksUp prepareCustomer :=
  ⟨⟨by decide, rfl⟩, rfl, by decide +kernel⟩

lemma trackCustomEvent_looksUp :
    trackCustomEvent.LooksUp (.hoist eventProperties :: prepareCustomer) :=
  ⟨⟨by decide, rfl⟩, rfl, by decide +kernel⟩

/-- **Every call of the catalog looks its fields up.** -/
theorem catalog_looksUp : ∀ action ∈ Catalog.actions, ∃ steps, action.LooksUp steps := by
  simp only [Catalog.actions, List.forall_mem_cons, List.not_mem_nil, false_implies, implies_true,
    and_true]
  exact ⟨⟨_, trackCustomer_looksUp⟩, ⟨_, trackPurchase_looksUp⟩, ⟨_, trackSignUp_looksUp⟩,
    ⟨_, trackCustomEvent_looksUp⟩⟩

end Friendbuy

end EventPayload
