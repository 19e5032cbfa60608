import EventPayload.Proofs.Failures
import EventPayload.Proofs.Reordering

/-!
# The order of keys in an event does not matter

The objects of an event list their keys in some order, and all stages of an action go through
objects in that order: hoisting, the check of lists, the mapping.  Nothing of it shows in what the
action makes of the event, but for the order of the keys in the payload.

* `Query.valueAt?_alike` — what stands at a path of alike events is alike.
* `Preparation.alike_run`, `Preparation.alike_runAll` — **preparing** keeps records alike, one step
  and all of them.
* `Mapping.misshapen?_eq_of_alike` — the check of lists refuses the same field of alike sources, if
  the mapping has a single list: of several it would name the first.
* `Call.Alike` — calls of one name whose data are alike.
* `Action.Orderless` — **an action that goes by what it reads**, and not by the order in which it
  reads.
* `Action.Orderless.perform_alike` — it makes alike calls of alike events, and fails for the same
  reason.
* `Friendbuy.perform_reordered` — so does every call of the catalog.
-/

namespace EventPayload

/-! ## Paths -/

namespace Query

/-- One step down from alike values. -/
lemma child?_alike {value other : Json} (h : value.Alike other) (segment : List Char) :
    Option.Rel Json.Alike (child? segment value) (child? segment other) := by
  obtain ⟨items, others, rfl, rfl, hitems⟩ | ⟨members, others, rfl, rfl, hmembers⟩ |
    ⟨rfl, hlist, hobject⟩ := h.shapes
  · clear h
    simp only [child?]
    cases index? segment with
    | none => exact .none
    | some i =>
      rw [Option.bind_some, Option.bind_some]
      -- the items of alike lists stand at the same positions
      induction hitems generalizing i with
      | nil => exact .none
      | cons hitem _ ih =>
        cases i with
        | zero => exact .some hitem
        | succ i => exact ih i
  · exact hmembers.get? _
  · cases value with
    | arr items => exact absurd rfl (hlist items)
    | obj members => exact absurd rfl (hobject members)
    | _ => exact .none

lemma descend?_alike (segments : List (List Char)) {value other : Json} (h : value.Alike other) :
    Option.Rel Json.Alike (descend? segments value) (descend? segments other) := by
  induction segments generalizing value other with
  | nil => exact .some h
  | cons segment rest ih =>
    simp only [descend?, List.foldlM_cons] at ih ⊢
    exact rel_bind (child?_alike h segment) fun _ _ hnext => ih hnext

/-- **What stands at a path of alike events is alike.** -/
theorem valueAt?_alike {event other : Json} (h : event.Alike other) (path : String) :
    Option.Rel Json.Alike (valueAt? event path) (valueAt? other path) := by
  rw [valueAt?, valueAt?]
  cases segments? path.toList with
  | none => exact .none
  | some segments => exact descend?_alike segments h

end Query

/-! ## Preparing -/

/-- Alike values are alike objects, if either is one. -/
lemma Json.Alike.rel_asRecord? {value other : Json} (h : value.Alike other) :
    Option.Rel (fun members others => (Json.obj members).Alike (.obj others)) value.asRecord?
      other.asRecord? := by
  obtain ⟨_, _, rfl, rfl, -⟩ | ⟨_, _, rfl, rfl, hmembers⟩ | ⟨rfl, -, hobject⟩ := h.shapes
  · exact .none
  · exact .some hmembers
  · cases value with
    | obj members => exact absurd rfl (hobject members)
    | _ => exact .none

namespace Record

variable {record other : Record} (h : (Json.obj record).Alike (.obj other))

include h

lemma namePart?_eq_of_alike (key : String) : namePart? record key = namePart? other key := by
  have hrel := h.get? key
  rw [namePart?, namePart?]
  generalize Entries.get? record key = x, Entries.get? other key = y at hrel ⊢
  cases hrel with
  | none => rfl
  | some halike => simp only [bind, Option.bind, halike.asText?_eq]

lemma isName_eq_of_alike (key : String) :
    isName (Entries.get? record key) = isName (Entries.get? other key) := by
  have hrel := h.get? key
  generalize Entries.get? record key = x, Entries.get? other key = y at hrel ⊢
  cases hrel with
  | none => rfl
  | some halike =>
    obtain ⟨_, _, rfl, rfl, -⟩ | ⟨_, _, rfl, rfl, -⟩ | ⟨rfl, -⟩ := halike.shapes
    all_goals rfl

lemma alike_fillName : (Json.obj (fillName record)).Alike (.obj (fillName other)) := by
  have hparts : nameParts record = nameParts other := by
    rw [nameParts, nameParts, funext (namePart?_eq_of_alike h)]
  rw [fillName, fillName, isName_eq_of_alike h, hparts]
  split
  · exact h
  · split
    · exact h
    · exact Json.alike_insert h "name" ((Json.alike_self_iff _).mpr trivial)

lemma alike_nested (key : String) :
    (Json.obj (nested record key)).Alike (.obj (nested other key)) := by
  have hrel := rel_bind (h.get? key) fun _ _ halike => halike.rel_asRecord?
  rw [nested, nested]
  generalize (Entries.get? record key).bind Json.asRecord? = x,
    (Entries.get? other key).bind Json.asRecord? = y at hrel ⊢
  cases hrel with
  | none => decide
  | some hmembers => exact hmembers

lemma alike_hoist (key : String) : (Json.obj (hoist record key)).Alike (.obj (hoist other key)) :=
  Json.alike_addMissing (Json.alike_erase h key) (alike_nested h key)

end Record

namespace Preparation

/-- **A step keeps records alike.** -/
lemma alike_run {record other : Record} (h : (Json.obj record).Alike (.obj other))
    (step : Preparation) : (Json.obj (step.run record)).Alike (.obj (step.run other)) := by
  cases step with
  | fillName => exact Record.alike_fillName h
  | hoist key => exact Record.alike_hoist h key

/-- **So does any preparation.** -/
theorem alike_runAll {record other : Record} (h : (Json.obj record).Alike (.obj other))
    (steps : List Preparation) :
    (Json.obj (runAll steps record)).Alike (.obj (runAll steps other)) := by
  induction steps generalizing record other with
  | nil => exact h
  | cons step rest ih => exact ih (alike_run h step)

end Preparation

/-! ## The check of lists -/

lemma Json.Alike.isObjectList_eq {value other : Json} (h : value.Alike other) :
    value.isObjectList = other.isObjectList := by
  obtain ⟨items, others, rfl, rfl, hitems⟩ | ⟨_, _, rfl, rfl, -⟩ | ⟨rfl, -⟩ := h.shapes
  · clear h
    simp only [isObjectList]
    induction hitems with
    | nil => rfl
    | cons hitem _ ih => rw [List.all_cons, List.all_cons, hitem.isObject_eq, ih]
  · rfl
  · rfl

namespace Mapping

variable {mapping : Mapping}

lemma misshapen?_of_alike (hsingle : ∀ a b, mapping.Lists a → mapping.Lists b → a = b)
    {source other : Record} (h : (Json.obj source).Alike (.obj other)) {field : String}
    (hfield : mapping.misshapen? source = some field) : mapping.misshapen? other = some field := by
  obtain ⟨hsource, hother, -⟩ := (Json.alike_obj_iff _ _).mp h
  rw [misshapen?_eq_some_iff_of_single hsingle hsource] at hfield
  obtain ⟨hlists, value, hread, hvalue⟩ := hfield
  obtain ⟨value', hread', halike⟩ := h.exists_of_get? hread
  rw [misshapen?_eq_some_iff_of_single hsingle hother]
  exact ⟨hlists, value', hread', halike.isObjectList_eq ▸ hvalue⟩

/-- **The check refuses the same field** of alike sources. -/
theorem misshapen?_eq_of_alike (hsingle : ∀ a b, mapping.Lists a → mapping.Lists b → a = b)
    {source other : Record} (h : (Json.obj source).Alike (.obj other)) :
    mapping.misshapen? source = mapping.misshapen? other :=
  Option.ext fun _ => ⟨misshapen?_of_alike hsingle h, misshapen?_of_alike hsingle h.symm⟩

end Mapping

/-! ## Actions -/

/-- **Calls that differ in the order of keys only.** -/
def Call.Alike (call other : Call) : Prop :=
  call.event = other.event ∧ (Json.obj call.data).Alike (.obj other.data)

/-- **An action that goes by what it reads**, and not by the order in which it reads. -/
structure Action.Orderless (action : Action) (steps : List Preparation) : Prop
    extends action.LooksUp steps where
  name : ∀ {resolved other : Record}, (Json.obj resolved).Alike (.obj other) →
    action.eventName resolved = action.eventName other
  single : ∀ a b, action.mapping.Lists a → action.mapping.Lists b → a = b
  defaults : action.mapping.DefaultsWellFormed
  finishers : ∀ step ∈ action.mapping.finishers, ∃ object key, step = .require object key

namespace Action

variable {action : Action} {steps : List Preparation}

/-- The records of alike events are alike. -/
lemma LooksUp.alike_payload (h : action.LooksUp steps) {event other : Json}
    (halike : event.Alike other) {resolved resolved' : Record}
    (hpayload : action.payload event = .ok resolved)
    (hpayload' : action.payload other = .ok resolved') :
    (Json.obj resolved).Alike (.obj resolved') := by
  refine (Json.alike_obj_iff _ _).mpr ⟨h.distinct_payload hpayload, h.distinct_payload hpayload',
    fun key => ?_⟩
  rw [h.get?_payload hpayload, h.get?_payload hpayload']
  cases Entries.get? action.places key with
  | none => exact .none
  | some path => exact Query.valueAt?_alike halike path

/-- Alike events have records, and what is prepared of these is alike as well. -/
lemma LooksUp.exists_alike_payload (h : action.LooksUp steps) {event other : Json}
    (halike : event.Alike other) :
    ∃ resolved resolved', action.payload event = .ok resolved ∧
      action.payload other = .ok resolved' ∧ (Json.obj resolved).Alike (.obj resolved') ∧
      (Json.obj (action.prepare resolved)).Alike (.obj (action.prepare resolved')) := by
  obtain ⟨resolved, hpayload⟩ := h.exists_payload event
  obtain ⟨resolved', hpayload'⟩ := h.exists_payload other
  have hresolved := h.alike_payload halike hpayload hpayload'
  refine ⟨resolved, resolved', hpayload, hpayload', hresolved, ?_⟩
  rw [h.prepare]
  exact Preparation.alike_runAll hresolved steps

namespace Orderless

variable (h : action.Orderless steps)

include h

/-- The data that are made of alike sources are alike. -/
lemma alike_data {source other data data' : Record} (halike : (Json.obj source).Alike (.obj other))
    (hrun : action.mapping.run source = .ok data) (hrun' : action.mapping.run other = .ok data') :
    (Json.obj data).Alike (.obj data') := by
  have hrules := action.mapping.rules_keepsAlike h.defaults
  obtain ⟨rendered, happly, rfl⟩ := (Mapping.run_eq_ok_iff _ _ _).mp hrun
  obtain ⟨rendered', happly', rfl⟩ := (Mapping.run_eq_ok_iff _ _ _).mp hrun'
  have hagree := @Ruleset.apply_alike _ action.mapping.leftovers _ _
    action.mapping.lawful.uncontested hrules halike
  rw [happly] at hagree
  obtain ⟨found, hfound, hrendered⟩ := hagree.exists_ok
  obtain rfl := Except.ok.inj (happly'.symm.trans hfound)
  exact Finisher.runAll_require_alike h.finishers hrendered

/-- The stages up to the mapping fail alike. -/
lemma perform_error_iff {members others : Record} (halike : (Json.obj members).Alike (.obj others))
    (failure : Failure) :
    action.perform (.obj members) = .error failure ↔
      action.perform (.obj others) = .error failure := by
  obtain ⟨resolved, resolved', hpayload, hpayload', hresolved, hsource⟩ :=
    h.exists_alike_payload halike
  rw [action.perform_eq_error_iff hpayload, action.perform_eq_error_iff hpayload', h.name hresolved,
    Mapping.misshapen?_eq_of_alike h.single hsource]

/-- The calls are alike, if both are made. -/
lemma alike_calls {members others : Record} (halike : (Json.obj members).Alike (.obj others))
    {call call' : Call} (hcall : action.perform (.obj members) = .ok call)
    (hcall' : action.perform (.obj others) = .ok call') : call.Alike call' := by
  obtain ⟨resolved, resolved', hpayload, hpayload', hresolved, hsource⟩ :=
    h.exists_alike_payload halike
  obtain ⟨hname, hrun⟩ := (action.perform_eq_ok_iff hpayload call).mp hcall
  obtain ⟨hname', hrun'⟩ := (action.perform_eq_ok_iff hpayload' call').mp hcall'
  rw [h.name hresolved, hname'] at hname
  exact ⟨(Except.ok.inj hname).symm, h.alike_data hsource hrun hrun'⟩

/-- **Alike events lead to alike calls, or to the same failure.** -/
theorem perform_alike {event other : Json} (halike : event.Alike other) :
    Agree Call.Alike (action.perform event) (action.perform other) ∧
      ∀ failure, action.perform event = .error failure ↔ action.perform other = .error failure := by
  cases hobject : event.isObject with
  | false =>
    have hobject' : other.isObject = false := by
      rw [← halike.isObject_eq, hobject]
    rw [action.perform_of_not_isObject hobject, action.perform_of_not_isObject hobject']
    exact ⟨.failed _ _, fun _ => Iff.rfl⟩
  | true =>
    obtain ⟨_, _, rfl, rfl, -⟩ | ⟨members, others, rfl, rfl, hmembers⟩ | ⟨rfl, -, hne⟩ :=
      halike.shapes
    · cases hobject
    · have herror := h.perform_error_iff hmembers
      refine ⟨?_, herror⟩
      cases hcall : action.perform (.obj members) with
      | error failure =>
        rw [(herror failure).mp hcall]
        exact .failed _ _
      | ok call =>
        cases hcall' : action.perform (.obj others) with
        | error failure =>
          rw [(herror failure).mpr hcall'] at hcall
          cases hcall
        | ok call' => exact .done (h.alike_calls hmembers hcall hcall')
    · cases event with
      | obj members => exact absurd rfl (hne members)
      | _ => cases hobject

end Orderless

end Action

namespace Friendbuy

/-! ## The calls of the catalog -/

lemma ownName_eq_of_alike {resolved other : Record} (h : (Json.obj resolved).Alike (.obj other)) :
    ownName resolved = ownName other := by
  have hrel := h.get? eventType
  rw [ownName, ownName]
  generalize Entries.get? resolved eventType = x, Entries.get? other eventType = y at hrel ⊢
  cases hrel with
  | none => rfl
  | some halike => rw [Option.bind_some, Option.bind_some, halike.asText?_eq]

/-- An action without lists and finishing steps goes by what it reads if its name does. -/
lemma orderless_of_flat {action : Action} {steps : List Preparation} (hlooks : action.LooksUp steps)
    (hflat : ∀ entry ∈ action.mapping.rules, entry.2.isEach = false)
    (hplain : action.mapping.finishers = [])
    (hname : ∀ {resolved other : Record}, (Json.obj resolved).Alike (.obj other) →
      action.eventName resolved = action.eventName other) : action.Orderless steps where
  toLooksUp := hlooks
  name := hname
  single a _ ha _ := absurd ha (Mapping.not_lists_of_flat hflat a)
  defaults := Mapping.defaultsWellFormed_of_flat hflat
  finishers := by simp [hplain]

lemma purchase_defaultsWellFormed : purchaseMapping.DefaultsWellFormed := by
  intro field defaults inner hentry
  have hdistinct : Entries.Distinct purchaseMapping.rules := by decide
  have hread := (Entries.get?_eq_some_iff hdistinct field _).mpr hentry
  have hlists : purchaseMapping.Lists field := by
    rw [Mapping.Lists, hread]
    rfl
  obtain rfl := (purchase_lists_iff field).mp hlists
  have hproducts : Entries.get? purchaseMapping.rules "products"
      = some (.each productDefaults productRules) := rfl
  rw [hread, Option.some.injEq, Rule.each.injEq] at hproducts
  rw [hproducts.1]
  decide

lemma trackCustomer_orderless : trackCustomer.Orderless prepareCustomer :=
  orderless_of_flat trackCustomer_looksUp (by decide) rfl fun _ => rfl

lemma trackSignUp_orderless : trackSignUp.Orderless prepareCustomer :=
  orderless_of_flat trackSignUp_looksUp (by decide) rfl fun _ => rfl

lemma trackCustomEvent_orderless :
    trackCustomEvent.Orderless (.hoist eventProperties :: prepareCustomer) :=
  orderless_of_flat trackCustomEvent_looksUp (by decide) rfl ownName_eq_of_alike

lemma trackPurchase_orderless : trackPurchase.Orderless prepareCustomer where
  toLooksUp := trackPurchase_looksUp
  name _ := rfl
  single := purchase_single
  defaults := purchase_defaultsWellFormed
  finishers := by
    intro step hstep
    exact ⟨"customer", "id", List.mem_singleton.mp hstep⟩

theorem catalog_orderless : ∀ action ∈ Catalog.actions, ∃ steps, action.Orderless steps := by
  simp only [Catalog.actions, List.forall_mem_cons, List.not_mem_nil, false_implies, implies_true,
    and_true]
  exact ⟨⟨_, trackCustomer_orderless⟩, ⟨_, trackPurchase_orderless⟩, ⟨_, trackSignUp_orderless⟩,
    ⟨_, trackCustomEvent_orderless⟩⟩

/-- **The order of keys in an event does not matter.**  Of two events that are equal up to that
order, every call of the catalog is made of both, under one name and with data that are equal up to
that order, or of neither, for the same reason. -/
theorem perform_reordered {event other : Json} (h : event.Alike other) :
    ∀ action ∈ Catalog.actions,
      Agree Call.Alike (action.perform event) (action.perform other) ∧
        ∀ failure, action.perform event = .error failure ↔
          action.perform other = .error failure := by
  intro action haction
  obtain ⟨steps, hsteps⟩ := catalog_orderless action haction
  exact hsteps.perform_alike h

/-- An order with the buyer's name and a gift among its attributes. -/
def giftOrder : Json :=
  .obj [("event", .str "Order Completed"), ("userId", .str "7"),
    ("properties", .obj [("order_id", .str "A1"), ("shop", .str "north"),
      ("products", .arr [.obj [("sku", .str "S1"), ("price", .str "2")], .obj []]),
      ("friendbuyAttributes", .obj [("shop", .str "south"), ("firstName", .str "Ada"),
        ("lastName", .str "L."), ("gift", .obj [("card", .str "C1"), ("note", .null)])])])]

/-- The same order with all of its objects listed backwards. -/
def giftOrderBackwards : Json :=
  .obj [("properties", .obj [
      ("friendbuyAttributes", .obj [("gift", .obj [("note", .null), ("card", .str "C1")]),
        ("lastName", .str "L."), ("firstName", .str "Ada"), ("shop", .str "south")]),
      ("products", .arr [.obj [("price", .str "2"), ("sku", .str "S1")], .obj []]),
      ("shop", .str "north"), ("order_id", .str "A1")]),
    ("userId", .str "7"), ("event", .str "Order Completed")]

theorem giftOrder_reordered :
    giftOrder.Alike giftOrderBackwards ∧ ∀ action ∈ Catalog.actions,
      Agree Call.Alike (action.perform giftOrder) (action.perform giftOrderBackwards) ∧
        ∀ failure, action.perform giftOrder = .error failure ↔
          action.perform giftOrderBackwards = .error failure := by
  have halike : giftOrder.Alike giftOrderBackwards := by decide
  exact ⟨halike, perform_reordered halike⟩

end Friendbuy

end EventPayload
