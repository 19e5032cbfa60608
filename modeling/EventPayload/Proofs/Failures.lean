import EventPayload.Proofs.LookUps
import EventPayload.Proofs.Trimming

/-!
# When the calls fail

A call is made of every object, but for two reasons: a custom event must have a name of its own, and
what is ordered must be a list of products.  This file says so exactly, for every event.

* `Mapping.Lists`, `Mapping.misshapen?_eq_some_iff_of_single` — the fields that a mapping takes for
  lists; where there is one at most, the check of lists looks at that field of the source and at
  nothing else, wherever it stands.
* `Friendbuy.get?_prepareCustomer` — what can be read from a record after its attributes were
  hoisted.
* `Friendbuy.Named` — an event with a name of its own.
* `Friendbuy.orderedProducts?` — what stands for the products of an order: the property of that
  name, a null included, or else the attribute.
* `Friendbuy.perform_failures` — **which events the calls fail for, and how**.
-/

namespace EventPayload

/-! ## Lists -/

lemma Json.isObjectList_eq_true_iff (value : Json) :
    value.isObjectList = true ↔
      value = .null ∨
        ∃ items, value = .arr items ∧ ∀ item ∈ items, ∃ members, item = .obj members := by
  have hobject : ∀ item : Json, item.isObject = true ↔ ∃ members, item = .obj members := by
    intro item
    cases item <;> simp [isObject]
  cases value <;> simp [isObjectList, hobject]

namespace Mapping

variable {mapping : Mapping}

/-- **A mapping takes a field for a list** of objects. -/
def Lists (mapping : Mapping) (field : String) : Prop :=
  (Entries.get? mapping.rules field).any Rule.isEach = true

lemma refuses_eq_true_iff (field : String) (value : Json) :
    mapping.refuses (field, value) = true ↔ mapping.Lists field ∧ value.isObjectList = false := by
  rw [refuses, Bool.and_eq_true, Bool.not_eq_true', Lists]

/-- Only entries for lists are rules for lists. -/
lemma Lists.exists_mem {field : String} (h : mapping.Lists field) :
    ∃ rule, (field, rule) ∈ mapping.rules ∧ rule.isEach = true := by
  obtain ⟨rule, hrule, heach⟩ := (Option.any_eq_true ..).mp h
  exact ⟨rule, Entries.mem_of_get? hrule, heach⟩

/-- A mapping without lists takes no field for one. -/
lemma not_lists_of_flat (hflat : ∀ entry ∈ mapping.rules, entry.2.isEach = false) (field : String) :
    ¬ mapping.Lists field := by
  intro hlists
  obtain ⟨rule, hrule, heach⟩ := hlists.exists_mem
  rw [hflat _ hrule] at heach
  cases heach

lemma lists_of_misshapen? {source : Record} {field : String}
    (h : mapping.misshapen? source = some field) : mapping.Lists field := by
  obtain ⟨⟨_, value⟩, hfind, rfl⟩ := Option.map_eq_some_iff.mp h
  exact ((refuses_eq_true_iff _ _).mp (List.find?_some hfind)).1

/-- **The check of lists for a single list.** -/
theorem misshapen?_eq_some_iff_of_single
    (hsingle : ∀ a b, mapping.Lists a → mapping.Lists b → a = b) {source : Record}
    (hsource : Entries.Distinct source) (field : String) :
    mapping.misshapen? source = some field ↔
      mapping.Lists field ∧
        ∃ value, Entries.get? source field = some value ∧ value.isObjectList = false := by
  constructor
  · intro h
    obtain ⟨⟨_, value⟩, hfind, rfl⟩ := Option.map_eq_some_iff.mp h
    obtain ⟨hlists, hvalue⟩ := (refuses_eq_true_iff _ _).mp (List.find?_some hfind)
    have hmem := List.mem_of_find?_eq_some hfind
    exact ⟨hlists, value, (Entries.get?_eq_some_iff hsource _ _).mpr hmem, hvalue⟩
  · rintro ⟨hlists, value, hread, hvalue⟩
    have hrefuses := (refuses_eq_true_iff field value).mpr ⟨hlists, hvalue⟩
    cases hfound : mapping.misshapen? source with
    | none =>
      have hnone := Option.map_eq_none_iff.mp hfound
      exact absurd hrefuses (List.find?_eq_none.mp hnone _ (Entries.mem_of_get? hread))
    | some other => rw [hsingle other field (lists_of_misshapen? hfound) hlists]

end Mapping

namespace Friendbuy

/-! ## Prepared records -/

/-- **Reading a prepared record.**  The attributes come behind the fields of the record, and take
the place of the object that held them. -/
theorem get?_prepareCustomer (record : Record) {key : String} (hkey : key ≠ "name") :
    Entries.get? (Preparation.runAll prepareCustomer record) key
      = (if attributes = key then none else Entries.get? record key).or
          (Entries.get? (Record.nested record attributes) key) := by
  show Entries.get? (Record.fillName (Record.hoist record attributes)) key = _
  rw [Preparation.get?_fillName _ hkey, Preparation.get?_hoist]

/-! ## Names and products -/

/-- **An event with a name of its own**: a text with something else than blanks in it. -/
def Named (members : Record) : Prop :=
  ∃ s, Entries.get? members "event" = some (.str s) ∧ Text.trim s ≠ ""

/-- **What stands for the products of an order.** -/
def orderedProducts? (members : Record) : Option Json :=
  (Entries.get? (properties members) "products").or
    (Entries.get? (ownAttributes members) "products")

/-- Only the name of a custom event can be missing. -/
lemma eventName_eq_error {action : Action} (haction : action ∈ Catalog.actions) {resolved : Record}
    {failure : Action.Failure} (h : action.eventName resolved = .error failure) :
    failure = .missingField eventType := by
  simp only [Catalog.actions, List.mem_cons, List.not_mem_nil, or_false] at haction
  rcases haction with rfl | rfl | rfl | rfl
  · cases h
  · cases h
  · cases h
  · have hname : ownName resolved = .error failure := h
    rw [ownName] at hname
    split at hname
    · split at hname
      · exact (Except.error.inj hname).symm
      · cases hname
    · exact (Except.error.inj hname).symm

/-- The text that a call is named after. -/
lemma bind_asText?_eq_some_iff (value : Option Json) (s : String) :
    value.bind Json.asText? = some s ↔ value = some (.str s) := by
  rcases value with _ | value
  · simp
  · cases value <;> simp [Json.asText?]

theorem ownName_eq_ok_iff (resolved : Record) (name : String) :
    ownName resolved = .ok name ↔
      ∃ s, Entries.get? resolved eventType = some (.str s) ∧ Text.trim s = name ∧ name ≠ "" := by
  simp only [← bind_asText?_eq_some_iff]
  rw [ownName]
  cases (Entries.get? resolved eventType).bind Json.asText? with
  | none => simp
  | some s =>
    by_cases hblank : Text.isBlank s = true
    · have htrim := (Text.trim_eq_empty_iff s).mpr hblank
      simp [hblank, htrim]
    · have htrim := mt (Text.trim_eq_empty_iff s).mp hblank
      simp only [hblank, Bool.false_eq_true, if_false, Except.ok.injEq, Option.some.injEq,
        exists_eq_left', iff_self_and]
      rintro rfl
      exact htrim

theorem ownName_eq_error_iff (resolved : Record) (failure : Action.Failure) :
    ownName resolved = .error failure ↔
      failure = .missingField eventType ∧
        ¬ ∃ s, Entries.get? resolved eventType = some (.str s) ∧ Text.trim s ≠ "" := by
  have hok : (∃ s, Entries.get? resolved eventType = some (.str s) ∧ Text.trim s ≠ "") ↔
      ∃ name, ownName resolved = .ok name := by
    simp [ownName_eq_ok_iff]
  rw [hok]
  cases hname : ownName resolved with
  | ok name => simp
  | error cause =>
    have hmem : trackCustomEvent ∈ Catalog.actions := by simp [Catalog.actions]
    have hcause := @eventName_eq_error trackCustomEvent hmem resolved cause hname
    rw [hcause]
    simp [eq_comm]

/-! ## The calls one by one -/

/-- An action without lists fails only for want of a name. -/
lemma perform_eq_error_iff_of_flat {action : Action}
    (hflat : ∀ entry ∈ action.mapping.rules, entry.2.isEach = false) {members resolved : Record}
    (hpayload : action.payload (.obj members) = .ok resolved) (failure : Action.Failure) :
    action.perform (.obj members) = .error failure ↔
      action.eventName resolved = .error failure := by
  rw [action.perform_eq_error_iff hpayload, or_iff_left]
  rintro ⟨-, field, -, hfield⟩
  exact Mapping.not_lists_of_flat hflat field (Mapping.lists_of_misshapen? hfield)

/-- An action without lists that can always name its call always makes one. -/
lemma exists_call_of_flat {action : Action} {steps : List Preparation}
    (hlooks : action.LooksUp steps) (hflat : ∀ entry ∈ action.mapping.rules, entry.2.isEach = false)
    (hname : ∀ resolved, ∃ name, action.eventName resolved = .ok name) (members : Record) :
    ∃ call, action.perform (.obj members) = .ok call := by
  obtain ⟨resolved, hpayload⟩ := hlooks.exists_payload (.obj members)
  cases hrun : action.perform (.obj members) with
  | ok call => exact ⟨call, rfl⟩
  | error failure =>
    obtain ⟨name, hok⟩ := hname resolved
    rw [perform_eq_error_iff_of_flat hflat hpayload, hok] at hrun
    cases hrun

/-- The name of an event is the one that its custom call reads. -/
lemma get?_eventType {members resolved : Record}
    (hpayload : trackCustomEvent.payload (.obj members) = .ok resolved) :
    Entries.get? resolved eventType = Entries.get? members "event" := by
  have hplace : Entries.get? trackCustomEvent.places eventType = some "$.event" := rfl
  rw [trackCustomEvent_looksUp.get?_payload hpayload, hplace, Option.bind_some]
  exact Query.valueAt?_member (by decide) members

/-- **A custom call fails for want of a name.** -/
theorem customEvent_eq_error_iff (members : Record) (failure : Action.Failure) :
    trackCustomEvent.perform (.obj members) = .error failure ↔
      failure = .missingField "eventType" ∧ ¬ Named members := by
  obtain ⟨resolved, hpayload⟩ := trackCustomEvent_looksUp.exists_payload (.obj members)
  have hflat : ∀ entry ∈ trackCustomEvent.mapping.rules, entry.2.isEach = false := by decide
  rw [perform_eq_error_iff_of_flat hflat hpayload, Named, ← get?_eventType hpayload]
  exact ownName_eq_error_iff resolved failure

lemma purchase_lists_iff (field : String) : purchaseMapping.Lists field ↔ field = "products" := by
  constructor
  · intro h
    obtain ⟨rule, hrule, heach⟩ := h.exists_mem
    have hall : ∀ entry ∈ purchaseMapping.rules, entry.2.isEach = true → entry.1 = "products" := by
      decide
    exact hall _ hrule heach
  · rintro rfl
    rfl

lemma purchase_single (a b : String) (ha : purchaseMapping.Lists a) (hb : purchaseMapping.Lists b) :
    a = b := by
  rw [(purchase_lists_iff a).mp ha, (purchase_lists_iff b).mp hb]

/-- The products of the source of a purchase. -/
lemma get?_products {members resolved : Record}
    (hpayload : trackPurchase.payload (.obj members) = .ok resolved) :
    Entries.get? (trackPurchase.prepare resolved) "products" = orderedProducts? members := by
  have hproperty : Entries.get? resolved "products"
      = Entries.get? (properties members) "products" :=
    get?_of_property trackPurchase_looksUp hpayload rfl (by decide) (by decide)
  rw [trackPurchase_looksUp.prepare, get?_prepareCustomer resolved (by decide), hproperty,
    nested_attributes trackPurchase_looksUp hpayload rfl]
  rfl

/-- **A purchase fails for products that are no list of objects.** -/
theorem purchase_eq_error_iff (members : Record) (failure : Action.Failure) :
    trackPurchase.perform (.obj members) = .error failure ↔
      failure = .invalidField "products" ∧
        ∃ products, orderedProducts? members = some products ∧ products ≠ .null ∧
          ¬ ∃ items, products = .arr items ∧ ∀ item ∈ items, ∃ product, item = .obj product := by
  obtain ⟨resolved, hpayload⟩ := trackPurchase_looksUp.exists_payload (.obj members)
  have hdistinct : Entries.Distinct (trackPurchase.prepare resolved) := by
    rw [trackPurchase_looksUp.prepare]
    exact Preparation.distinct_runAll (trackPurchase_looksUp.distinct_payload hpayload) _
  have hname : trackPurchase.eventName resolved = .ok "purchase" := rfl
  have hmisshapen := Mapping.misshapen?_eq_some_iff_of_single purchase_single hdistinct
  rw [trackPurchase.perform_eq_error_iff hpayload, hname]
  simp only [reduceCtorEq, false_or, Except.ok.injEq, exists_eq', true_and]
  have hshape : ∀ products : Json, products.isObjectList = false ↔ products ≠ .null ∧
      ¬ ∃ items, products = .arr items ∧ ∀ item ∈ items, ∃ product, item = .obj product := by
    intro products
    rw [← not_or, ← Json.isObjectList_eq_true_iff, Bool.not_eq_true]
  constructor
  · rintro ⟨field, rfl, hfield⟩
    obtain ⟨hlists, products, hread, hvalue⟩ := (hmisshapen field).mp hfield
    obtain rfl := (purchase_lists_iff field).mp hlists
    rw [get?_products hpayload] at hread
    exact ⟨rfl, products, hread, (hshape products).mp hvalue⟩
  · rintro ⟨rfl, products, hread, hvalue⟩
    rw [← get?_products hpayload] at hread
    have hlists := (purchase_lists_iff "products").mpr rfl
    have hrefused := (hshape products).mpr hvalue
    exact ⟨"products", rfl, (hmisshapen _).mpr ⟨hlists, products, hread, hrefused⟩⟩

/-! ## All calls -/

/-- No call fails for an object but for want of a name or for a field that is no list. -/
lemma catalog_error_of_object {action : Action} (haction : action ∈ Catalog.actions)
    {members : Record} {failure : Action.Failure}
    (h : action.perform (.obj members) = .error failure) :
    failure = .missingField eventType ∨ ∃ field, failure = .invalidField field := by
  obtain ⟨steps, hlooks⟩ := catalog_looksUp action haction
  obtain ⟨resolved, hpayload⟩ := hlooks.exists_payload (.obj members)
  rw [action.perform_eq_error_iff hpayload] at h
  rcases h with hname | ⟨-, field, hfield, -⟩
  · exact Or.inl (eventName_eq_error haction hname)
  · exact Or.inr ⟨field, hfield⟩

lemma catalog_eq_notObject_iff {action : Action} (haction : action ∈ Catalog.actions)
    (event : Json) : action.perform event = .error .notObject ↔ event.isObject = false := by
  refine ⟨fun h => ?_, action.perform_of_not_isObject⟩
  cases event with
  | obj members =>
    rcases catalog_error_of_object haction h with hfailure | ⟨field, hfailure⟩
    all_goals cases hfailure
  | _ => rfl

lemma catalog_ne_unresolved {action : Action} (haction : action ∈ Catalog.actions) (event : Json)
    (invalid : InvalidPath) : action.perform event ≠ .error (.unresolved invalid) := by
  intro h
  cases event with
  | obj members =>
    rcases catalog_error_of_object haction h with hfailure | ⟨field, hfailure⟩
    all_goals cases hfailure
  | _ => cases h

/-- **Which events the calls fail for, and how.**  All of them fail for what is no object, and none
for a path.  Of objects, a profile and a sign-up can always be made; a custom call fails exactly for
want of a name; and a purchase fails exactly for products that are there and neither null nor a list
of objects. -/
theorem perform_failures :
    (∀ action ∈ Catalog.actions, ∀ event,
      (action.perform event = .error .notObject ↔ event.isObject = false) ∧
        ∀ invalid, action.perform event ≠ .error (.unresolved invalid)) ∧
    ∀ members : Record,
      (∀ action ∈ [trackCustomer, trackSignUp], ∃ call, action.perform (.obj members) = .ok call) ∧
      (∀ failure, trackCustomEvent.perform (.obj members) = .error failure ↔
        failure = .missingField "eventType" ∧ ¬ Named members) ∧
      ∀ failure, trackPurchase.perform (.obj members) = .error failure ↔
        failure = .invalidField "products" ∧
          ∃ products, orderedProducts? members = some products ∧ products ≠ .null ∧
            ¬ ∃ items, products = .arr items ∧ ∀ item ∈ items, ∃ product, item = .obj product := by
  constructor
  · intro action haction event
    exact ⟨catalog_eq_notObject_iff haction event, catalog_ne_unresolved haction event⟩
  · intro members
    refine ⟨?_, customEvent_eq_error_iff members, purchase_eq_error_iff members⟩
    simp only [List.forall_mem_cons, List.not_mem_nil, false_implies, implies_true, and_true]
    constructor
    · exact exists_call_of_flat trackCustomer_looksUp (by decide) (fun _ => ⟨_, rfl⟩) members
    · exact exists_call_of_flat trackSignUp_looksUp (by decide) (fun _ => ⟨_, rfl⟩) members

/-- An order without products, but for an attribute of that name, under a blank name. -/
def attributedOrder : Record :=
  [("event", .str " "),
    ("properties", .obj [("order_id", .str "7"),
      ("friendbuyAttributes", .obj [("products", .arr [.obj [], .str "A1"])])])]

theorem attributedOrder_refused :
    trackPurchase ∈ Catalog.actions ∧
      trackPurchase.perform (.arr [.obj attributedOrder]) = .error .notObject ∧
      trackPurchase.perform (.obj attributedOrder) = .error (.invalidField "products") ∧
      trackCustomEvent.perform (.obj attributedOrder) = .error (.missingField "eventType") ∧
      ∃ call, trackSignUp.perform (.obj attributedOrder) = .ok call := by
  have hmem : trackPurchase ∈ Catalog.actions := by simp [Catalog.actions]
  obtain ⟨hsucceeds, hcustom, hpurchase⟩ := perform_failures.2 attributedOrder
  refine ⟨hmem, (perform_failures.1 trackPurchase hmem _).1.mpr rfl, (hpurchase _).mpr ⟨rfl, ?_⟩,
    (hcustom _).mpr ⟨rfl, ?_⟩, hsucceeds trackSignUp (by simp)⟩
  · exact ⟨.arr [.obj [], .str "A1"], rfl, by simp, by simp⟩
  · rintro ⟨s, hread, hne⟩
    obtain rfl : " " = s := by simpa [attributedOrder, Entries.get?] using hread
    exact hne (by decide)

end Friendbuy

end EventPayload
