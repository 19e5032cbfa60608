import EventPayload.Friendbuy.Customer
import EventPayload.Proofs.Paths
import EventPayload.Proofs.Shapes

/-!
# From an event to a source record

Before anything is mapped, directives are resolved against the event and the record they give is
prepared.  This file says what can be read from a record after these two stages.

* `Directive.keys_sublist_of_resolve`, `Directive.resolve_of_get?` — **resolving**: no key is invented
  or moved, and what stands at a key is what its directive gives.
* `Preparation.get?_hoist`, `Preparation.get?_fillName` — what can be read after one step.
* `Preparation.distinct_runAll`, `Preparation.get?_runAll` — **preparing** repeats no key, and keeps
  what stands at a key that all of its steps spare.
* `Action.source`, `Action.perform_eq_ok` — the record that an action maps, and what a successful call
  has to do with it.
* `Action.Orderly.get?_source` — a field that is looked up at the root of the event and spared by the
  preparation arrives as it stands in the event.
-/

namespace EventPayload

/-! ## Resolving -/

namespace Directive

variable {event : Json} {members : Entries Directive} {resolved : Record}

lemma resolveMembers_cons_eq_ok_iff (key : String) (directive : Directive) (rest : Entries Directive) :
    resolveMembers event ((key, directive) :: rest) = .ok resolved ↔
      ∃ found others, resolve event directive = .ok found ∧ resolveMembers event rest = .ok others ∧
        resolved = found.toList.map (fun value => (key, value)) ++ others := by
  rw [resolveMembers]
  simp only [bind_eq_bind, bind_eq_ok_iff]
  constructor
  · rintro ⟨found, hfound, others, hothers, hresolved⟩
    refine ⟨found, others, hfound, hothers, ?_⟩
    cases found <;> simpa [eq_comm] using hresolved
  · rintro ⟨found, others, hfound, hothers, rfl⟩
    refine ⟨found, hfound, others, hothers, ?_⟩
    cases found <;> rfl

/-- No key is invented or moved. -/
theorem keys_sublist_of_resolve (h : resolveMembers event members = .ok resolved) :
    (Entries.keys resolved).Sublist (Entries.keys members) := by
  induction members generalizing resolved with
  | nil =>
    obtain rfl : [] = resolved := by simpa [resolveMembers] using h
    exact .slnil
  | cons entry rest ih =>
    obtain ⟨key, directive⟩ := entry
    obtain ⟨found, others, -, hothers, rfl⟩ := (resolveMembers_cons_eq_ok_iff ..).mp h
    have hrest := ih hothers
    cases found with
    | none => exact hrest.cons key
    | some value => exact hrest.cons_cons key

/-- **What stands at a key is what its directive gives**, be it a value or the absence of one. -/
theorem resolve_of_get? (hmembers : Entries.Distinct members)
    (h : resolveMembers event members = .ok resolved) {key : String} {directive : Directive}
    (hread : Entries.get? members key = some directive) :
    resolve event directive = .ok (Entries.get? resolved key) := by
  induction members generalizing resolved with
  | nil => cases hread
  | cons entry rest ih =>
    obtain ⟨name, first⟩ := entry
    obtain ⟨found, others, hfound, hothers, rfl⟩ := (resolveMembers_cons_eq_ok_iff ..).mp h
    have hrest : name ∉ Entries.keys rest ∧ Entries.Distinct rest := List.nodup_cons.mp hmembers
    by_cases hname : name = key
    · subst hname
      obtain rfl : first = directive := by simpa [Entries.get?] using hread
      rw [hfound]
      cases found with
      | some value => simp [Entries.get?]
      | none =>
        -- the key is not found again among the other members
        have hnot : name ∉ Entries.keys others := fun hmem =>
          hrest.1 ((keys_sublist_of_resolve hothers).subset hmem)
        have hnone := (Entries.get?_eq_none_iff others name).mpr hnot
        simp [hnone]
    · have hother : Entries.get? rest key = some directive := by
        simpa [Entries.get?, hname] using hread
      rw [ih hrest.2 hothers hother]
      cases found <;> simp [Entries.get?, hname]

lemma ofMembers_eq_map (record : Record) :
    ofMembers record = record.map fun entry => (entry.1, ofJson entry.2) := by
  induction record with
  | nil => rfl
  | cons entry rest ih => rw [ofMembers, ih, List.map_cons]

/-- An object is a path, a literal, or a group of directives. -/
lemma ofJson_obj (members : Record) :
    (∃ value, members = [("@path", value)] ∧ ofJson (.obj members) = .path value) ∨
    (∃ value, members = [("@literal", value)] ∧ ofJson (.obj members) = .literal value) ∨
    (∀ value, members ≠ [("@path", value)]) ∧ (∀ value, members ≠ [("@literal", value)]) ∧
      ofJson (.obj members) = .group (ofMembers members) := by
  rcases members with _ | ⟨⟨key, value⟩, _ | ⟨next, rest⟩⟩
  · exact Or.inr (Or.inr ⟨by simp, by simp, rfl⟩)
  · by_cases hpath : key = "@path"
    · subst hpath
      exact Or.inl ⟨value, rfl, by simp [ofJson]⟩
    by_cases hliteral : key = "@literal"
    · subst hliteral
      exact Or.inr (Or.inl ⟨value, rfl, by simp [ofJson]⟩)
    · refine Or.inr (Or.inr ⟨?_, ?_, by simp [ofJson, ofMembers, hpath, hliteral]⟩)
      · simp [hpath]
      · simp [hliteral]
  · exact Or.inr (Or.inr ⟨by simp, by simp, rfl⟩)

lemma get?_ofMembers (record : Record) (key : String) :
    Entries.get? (ofMembers record) key = (Entries.get? record key).map ofJson := by
  rw [ofMembers_eq_map, Entries.get?_map]

lemma keys_ofMembers (record : Record) : Entries.keys (ofMembers record) = Entries.keys record := by
  rw [ofMembers_eq_map, Entries.keys_map]

lemma distinct_resolveRecord {directives : Record} (hd : Entries.Distinct directives)
    (h : resolveRecord directives event = .ok resolved) : Entries.Distinct resolved := by
  have hkeys := keys_sublist_of_resolve h
  rw [keys_ofMembers] at hkeys
  exact hd.sublist hkeys

/-- A field that is looked up in the event. -/
lemma lookup_of_lookUp {directives : Record} (hd : Entries.Distinct directives)
    (h : resolveRecord directives event = .ok resolved) {key path : String}
    (hread : Entries.get? directives key = some (Friendbuy.lookUp path)) :
    Query.lookup event path = .ok (Entries.get? resolved key) := by
  have hdistinct : Entries.Distinct (ofMembers directives) := by
    rwa [Entries.Distinct, keys_ofMembers]
  have hdirective : Entries.get? (ofMembers directives) key = some (.path (.str path)) := by
    rw [get?_ofMembers, hread]
    rfl
  have hresolve := resolve_of_get? hdistinct h hdirective
  rwa [resolve, lookupAt] at hresolve

end Directive

/-! ## Preparing -/

namespace Preparation

lemma distinct_run {record : Record} (h : Entries.Distinct record) (step : Preparation) :
    Entries.Distinct (step.run record) := by
  cases step with
  | hoist key => exact Entries.distinct_addMissing (Entries.distinct_erase h key) _
  | fillName =>
    rw [run, Record.fillName]
    split
    · exact h
    · split
      · exact h
      · exact Entries.distinct_insert h _ _

lemma distinct_runAll {record : Record} (h : Entries.Distinct record) (steps : List Preparation) :
    Entries.Distinct (runAll steps record) := by
  induction steps generalizing record with
  | nil => exact h
  | cons step rest ih => exact ih (distinct_run h step)

/-- **A step spares a key** that it is not about. -/
def Spares (key : String) : Preparation → Prop
  | fillName => key ≠ "name"
  | hoist nested => key ≠ nested

instance (key : String) : DecidablePred (Spares key)
  | fillName => inferInstanceAs (Decidable (key ≠ "name"))
  | hoist nested => inferInstanceAs (Decidable (key ≠ nested))

variable {key : String} {value : Json}

/-- **Reading after hoisting.**  The entries of the nested object come last, and those of the record
win. -/
theorem get?_hoist (record : Record) (nested key : String) :
    Entries.get? (Record.hoist record nested) key
      = (if nested = key then none else Entries.get? record key).or
          (Entries.get? (Record.nested record nested) key) := by
  rw [Record.hoist, Entries.get?_addMissing, Entries.get?_erase]

/-- Filling in a name changes nothing else. -/
lemma get?_fillName (record : Record) (hkey : key ≠ "name") :
    Entries.get? (Record.fillName record) key = Entries.get? record key := by
  rw [Record.fillName]
  split
  · rfl
  · split
    · rfl
    · rw [Entries.get?_insert, if_neg (Ne.symm hkey)]

lemma get?_run {record : Record} {step : Preparation} (hstep : step.Spares key)
    (hread : Entries.get? record key = some value) :
    Entries.get? (step.run record) key = some value := by
  cases step with
  | hoist nested =>
    have hne : nested ≠ key := Ne.symm hstep
    rw [run, get?_hoist, if_neg hne, hread, Option.some_or]
  | fillName => rw [run, get?_fillName record hstep, hread]

/-- **What all steps spare stays as it is.** -/
theorem get?_runAll {record : Record} {steps : List Preparation}
    (hsteps : ∀ step ∈ steps, step.Spares key) (hread : Entries.get? record key = some value) :
    Entries.get? (runAll steps record) key = some value := by
  induction steps generalizing record with
  | nil => exact hread
  | cons step rest ih =>
    rw [List.forall_mem_cons] at hsteps
    exact ih hsteps.2 (get?_run hsteps.1 hread)

end Preparation

/-! ## Performing -/

namespace Action

/-- **The source record** of an action: what its directives give for an event, prepared. -/
def source (action : Action) (event : Json) : Except Failure Record :=
  (action.payload event).map action.prepare

variable (action : Action)

/-- **A successful call.** -/
theorem perform_eq_ok {event : Json} {call : Call} (h : action.perform event = .ok call) :
    ∃ source, action.source event = .ok source ∧ action.mapping.run source = .ok call.data := by
  cases hobject : event.isObject with
  | false =>
    rw [action.perform_of_not_isObject hobject] at h
    cases h
  | true =>
    rw [action.perform_of_isObject hobject, bind_eq_ok_iff] at h
    obtain ⟨payload, hpayload, h⟩ := h
    rw [bind_eq_ok_iff] at h
    obtain ⟨name, -, h⟩ := h
    rw [bind_eq_ok_iff] at h
    obtain ⟨_, -, h⟩ := h
    obtain ⟨data, hdata, rfl⟩ := (map_eq_ok_iff _ _ _).mp h
    refine ⟨action.prepare payload, ?_, (mapError_eq_ok_iff _ _ _).mp hdata⟩
    rw [source, hpayload]
    rfl

end Action

/-- **An action with an orderly source**: its directives have different names, and its preparation is
a list of steps. -/
structure Action.Orderly (action : Action) (steps : List Preparation) : Prop where
  distinct : Entries.Distinct action.directives
  prepare : action.prepare = Preparation.runAll steps

namespace Action.Orderly

variable {action : Action} {steps : List Preparation}

lemma exists_resolved (h : action.Orderly steps) {event : Json} {source : Record}
    (hsource : action.source event = .ok source) :
    ∃ resolved, Directive.resolveRecord action.directives event = .ok resolved ∧
      Preparation.runAll steps resolved = source := by
  obtain ⟨resolved, hresolved, rfl⟩ := (map_eq_ok_iff _ _ _).mp hsource
  exact ⟨resolved, (mapError_eq_ok_iff _ _ _).mp hresolved, by rw [h.prepare]⟩

theorem distinct_source (h : action.Orderly steps) {event : Json} {source : Record}
    (hsource : action.source event = .ok source) : Entries.Distinct source := by
  obtain ⟨resolved, hresolved, rfl⟩ := h.exists_resolved hsource
  exact Preparation.distinct_runAll (Directive.distinct_resolveRecord h.distinct hresolved) steps

/-- **A spared field arrives as it stands in the event.** -/
theorem get?_source (h : action.Orderly steps) {members source : Record} {field path segment : String}
    (hsource : action.source (.obj members) = .ok source)
    (hfield : Entries.get? action.directives field = some (Friendbuy.lookUp path))
    (hpath : Query.Spells path [segment.toList]) (hsegment : segment ≠ "")
    (hsteps : ∀ step ∈ steps, step.Spares field) {value : Json}
    (hvalue : Entries.get? members segment = some value) :
    Entries.get? source field = some value := by
  obtain ⟨resolved, hresolved, rfl⟩ := h.exists_resolved hsource
  refine Preparation.get?_runAll hsteps ?_
  have hlookup := Directive.lookup_of_lookUp h.distinct hresolved hfield
  rw [Query.lookup_member hpath hsegment, hvalue] at hlookup
  exact (Except.ok.inj hlookup).symm

end Action.Orderly

end EventPayload
