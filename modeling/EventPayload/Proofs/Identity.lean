import EventPayload.Catalog
import EventPayload.Proofs.Profile
import EventPayload.Proofs.Sources

/-!
# Who a call is about

An event names its user at the root.  Attributes and properties may hold anything, also entries that
are named like the fields of a customer or like the places where these go.  This file says that they
cannot get in the way of the user's identifier, and what becomes of a buyer without one.

* `ReadsUser` — an action that looks the user up at the root of the event, and keeps what it found
  while it prepares its source.
* `get?_id_of_top`, `get?_customer_of_apply` — where identifiers go: to the top, or into the buyer of
  a purchase.
* `BuyerSettled` — **what a purchase says of its buyer**: all of the profile, if that has an
  identifier; nothing, if the profile is without one; and if there is no profile, what the source has
  under the name of the object.
* `perform_settles_buyer` — every purchase settles its buyer.
* `perform_identifies` — **the user of an event is the customer of its calls**.
-/

namespace EventPayload.Friendbuy

/-! ## Reading the user -/

/-- **An action that reads the user of the event**, and keeps what it read. -/
structure ReadsUser (action : Action) (steps : List Preparation) : Prop
    extends action.Orderly steps where
  identifier : Entries.get? action.directives "customerId" = some (lookUp "$.userId")
  spared : ∀ step ∈ steps, step.Spares "customerId"

lemma trackCustomer_readsUser : ReadsUser trackCustomer prepareCustomer :=
  ⟨⟨by decide, rfl⟩, rfl, by decide⟩

lemma trackPurchase_readsUser : ReadsUser trackPurchase prepareCustomer :=
  ⟨⟨by decide, rfl⟩, rfl, by decide⟩

lemma trackSignUp_readsUser : ReadsUser trackSignUp prepareCustomer :=
  ⟨⟨by decide, rfl⟩, rfl, by decide⟩

lemma trackCustomEvent_readsUser :
    ReadsUser trackCustomEvent (.hoist eventProperties :: prepareCustomer) :=
  ⟨⟨by decide, rfl⟩, rfl, by decide⟩

/-- The user of the event is the customer of the source. -/
lemma ReadsUser.get?_customerId {action : Action} {steps : List Preparation}
    (h : ReadsUser action steps) {members source : Record} {user : Json}
    (hsource : action.source (.obj members) = .ok source)
    (huser : Entries.get? members "userId" = some user) :
    Entries.get? source "customerId" = some user := by
  have hpath : Query.Spells "$.userId" ["userId".toList] := by decide
  exact h.get?_source hsource h.identifier hpath (by decide) h.spared huser

/-! ## Identifiers at the top -/

lemma customer_places : Places .top customerMapping.rules :=
  @places_of_append .top [] _ (by simp [Entries.keys])

lemma customEvent_places : Places .top customEventMapping.rules := by
  rw [← List.append_nil customEventMapping.rules]
  exact places_of_append (by decide)

/-- An identifier is a contribution like any other, so nothing takes its place. -/
lemma get?_id_of_top {mapping : Mapping} (hplaces : Places .top mapping.rules)
    (hplain : mapping.finishers = []) {source data : Record} (hsource : Entries.Distinct source)
    (hrun : mapping.run source = .ok data) {user id : Json}
    (huser : Entries.get? source "customerId" = some user)
    (hid : Coercion.toText user = some id) : Entries.get? data "id" = some id := by
  rw [Mapping.run_eq_ok_iff, hplain] at hrun
  obtain ⟨rendered, happly, rfl⟩ := hrun
  have hrenders := apply_renders hsource mapping.lawful.uncontested happly
  have hfield : "customerId" ∈ customerFields := by decide
  obtain ⟨rule, hrule, hslot, hvalue⟩ := exists_customerRule .top hfield
  have hmakes : rule.Makes user id := by
    rw [Rule.makes_iff "customerId", hvalue]
    exact congrArg _ hid
  rw [← hplaces _ hfield] at hrule
  exact hrenders.top ⟨rule, user, hrule, huser, hslot, hmakes⟩

/-- An action that reads the user and places customers at the top sends the user's identifier. -/
lemma ReadsUser.get?_id {action : Action} {steps : List Preparation} (h : ReadsUser action steps)
    (hplaces : Places .top action.mapping.rules) (hplain : action.mapping.finishers = [])
    {members : Record} {call : Call} (hcall : action.perform (.obj members) = .ok call)
    {user id : Json} (huser : Entries.get? members "userId" = some user)
    (hid : Coercion.toText user = some id) : Entries.get? call.data "id" = some id := by
  obtain ⟨source, hsource, hrun⟩ := action.perform_eq_ok hcall
  have hcustomer := h.get?_customerId hsource huser
  exact get?_id_of_top hplaces hplain (h.distinct_source hsource) hrun hcustomer hid

/-! ## The buyer of a purchase -/

/-- No rule but those of the customer fields writes under the buyer. -/
lemma purchase_others (field : String) (rule : Rule) (slot : Slot)
    (hrule : Entries.get? purchaseMapping.rules field = some rule) (hfield : field ∉ customerFields)
    (hslot : rule.slot? field = some slot) : slot.root ≠ "customer" := by
  have hall : ∀ entry ∈ purchaseMapping.rules, entry.1 ∉ customerFields →
      ∀ slot ∈ entry.2.slot? entry.1, slot.root ≠ "customer" := by decide
  exact hall _ (Entries.mem_of_get? hrule) hfield slot hslot

/-- No rule writes the buyer as a whole. -/
lemma purchase_top_not_written (source : Record) (value : Json) :
    (Slot.top "customer", value) ∉ written (Ruleset.decide purchaseMapping.rules) source := by
  have hall : ∀ entry ∈ purchaseMapping.rules, entry.2.slot? entry.1 ≠ some (.top "customer") := by
    decide
  intro hmem
  obtain ⟨entry, -, hentry⟩ := List.mem_filterMap.mp hmem
  obtain ⟨rule, hrule, hslot, -⟩ := (written?_decide entry _ _).mp hentry
  exact hall _ (Entries.mem_of_get? hrule) hslot

/-- **The buyer before the requirement**: the profile of the source, or in its absence what the source
itself has under that name. -/
theorem get?_customer_of_apply {source rendered : Record} (hsource : Entries.Distinct source)
    (h : Ruleset.apply purchaseMapping.rules .pass source = .ok rendered) :
    Entries.get? rendered "customer"
      = if profile source = [] then Entries.get? source "customer"
        else some (.obj (profile source)) := by
  obtain ⟨-, rfl⟩ := (assemble_eq_ok_iff .pass source rendered).mp h
  have hinside := inside_written purchase_places purchase_others source
  have houter := get?_writeAll_outer (purchase_top_not_written source)
  have hprofile : Entries.ofWrites (profile source) = profile source :=
    Entries.overlay_of_distinct (distinct_profile hsource)
  rw [hinside, hprofile] at houter
  have hpassed : Entries.get? (unruled (Ruleset.decide purchaseMapping.rules) source) "customer"
      = Entries.get? source "customer" := by
    rw [get?_unruled]
    rfl
  rw [compose, Entries.get?_addMissing, houter, hpassed]
  split <;> rfl

/-- **What a purchase says of its buyer.** -/
structure BuyerSettled (source data : Record) : Prop where
  /-- A buyer with an identifier is sent with all that the source says of them. -/
  identified : ∀ {id}, (Entries.get? source "customerId").bind Coercion.toText = some id →
    Entries.get? data "customer" = some (.obj (profile source)) ∧
      Entries.get? (profile source) "id" = some id
  /-- A buyer without one is not sent at all. -/
  suppressed : (Entries.get? source "customerId").bind Coercion.toText = none → profile source ≠ [] →
    "customer" ∉ Entries.keys data
  /-- Where nothing is said of a buyer, the source's own entry is sent, if it has an identifier or
  is no object. -/
  passed : profile source = [] → ∀ value, Entries.get? data "customer" = some value ↔
    Entries.get? source "customer" = some value ∧ Finisher.Meets "id" value
  /-- No field of the buyer and no renamed field of the order is left at the top. -/
  consumed : ∀ field ∈ customerFields ++ ["orderId", "coupon"], field ∉ Entries.keys data

lemma get?_profile_id {source : Record} (h : Entries.Distinct source) :
    Entries.get? (profile source) "id" = (Entries.get? source "customerId").bind Coercion.toText := by
  refine Option.ext fun id => ?_
  rw [Entries.get?_eq_some_iff (distinct_profile h), mem_profile_id, Option.bind_eq_some_iff]
  simp only [Entries.get?_eq_some_iff h]

/-- A profile meets the requirement exactly if it has an identifier, which is a text. -/
lemma meets_profile_iff {source : Record} (h : Entries.Distinct source) :
    Finisher.Meets "id" (.obj (profile source)) ↔
      ∃ id, (Entries.get? source "customerId").bind Coercion.toText = some id := by
  rw [Finisher.Meets]
  simp only [Json.obj.injEq, forall_eq', get?_profile_id h]
  constructor
  · rintro ⟨id, hid, -⟩
    exact ⟨id, hid⟩
  · rintro ⟨id, hid⟩
    obtain ⟨user, -, htext⟩ := Option.bind_eq_some_iff.mp hid
    obtain ⟨s, rfl⟩ := exists_str_of_toText htext
    exact ⟨_, hid, by simp⟩

/-- No rule of a purchase writes at the top under the name of a customer field, of the order's number
or of its coupon. -/
lemma get?_consumed {source rendered : Record} (hsource : Entries.Distinct source)
    (h : Ruleset.apply purchaseMapping.rules .pass source = .ok rendered) {field : String}
    (hfield : field ∈ customerFields ++ ["orderId", "coupon"]) :
    Entries.get? rendered field = none := by
  have hruled : ∀ field ∈ customerFields ++ ["orderId", "coupon"],
      (Entries.get? purchaseMapping.rules field).isSome := by decide
  have hroots : ∀ entry ∈ purchaseMapping.rules, ∀ slot ∈ entry.2.slot? entry.1,
      slot.root ∉ customerFields ++ ["orderId", "coupon"] := by decide
  have hrenders := apply_renders hsource purchaseMapping.lawful.uncontested h
  rw [hrenders.rest, if_neg]
  · rintro ⟨-, hnone⟩
    have hsome := hruled field hfield
    rw [hnone] at hsome
    cases hsome
  · rintro name slot result ⟨rule, value, hrule, -, hslot, -⟩ rfl
    exact hroots _ (Entries.mem_of_get? hrule) slot hslot hfield

/-- **The buyer after the requirement.** -/
theorem get?_customer_of_run {source rendered : Record} (hsource : Entries.Distinct source)
    (h : Ruleset.apply purchaseMapping.rules .pass source = .ok rendered) (value : Json) :
    Entries.get? (Finisher.run rendered (.require "customer" "id")) "customer" = some value ↔
      (if profile source = [] then Entries.get? source "customer"
        else some (.obj (profile source))) = some value ∧ Finisher.Meets "id" value := by
  rw [Finisher.get?_require, get?_customer_of_apply hsource h]
  simp

/-- The mapping of purchases settles the buyer of any record. -/
theorem purchase_run_settles {source data : Record} (hsource : Entries.Distinct source)
    (hrun : purchaseMapping.run source = .ok data) : BuyerSettled source data := by
  obtain ⟨rendered, happly, rfl⟩ := (Mapping.run_eq_ok_iff _ _ _).mp hrun
  have hcustomer := get?_customer_of_run hsource happly
  constructor
  · intro id hid
    have hprofile : Entries.get? (profile source) "id" = some id := by
      rw [get?_profile_id hsource, hid]
    have hne : profile source ≠ [] := by
      intro hnil
      rw [hnil] at hprofile
      cases hprofile
    refine ⟨(hcustomer _).mpr ⟨if_neg hne, ?_⟩, hprofile⟩
    exact (meets_profile_iff hsource).mpr ⟨id, hid⟩
  · intro hid hne
    rw [← Entries.get?_eq_none_iff, Option.eq_none_iff_forall_ne_some]
    intro value hvalue
    obtain ⟨hprofile, hmeets⟩ := (hcustomer value).mp hvalue
    rw [if_neg hne] at hprofile
    obtain rfl := Option.some.inj hprofile
    obtain ⟨id, hsome⟩ := (meets_profile_iff hsource).mp hmeets
    rw [hid] at hsome
    cases hsome
  · intro hnil value
    have hpassed := hcustomer value
    rwa [if_pos hnil] at hpassed
  · intro field hfield
    rw [← Entries.get?_eq_none_iff, Option.eq_none_iff_forall_ne_some]
    intro value hvalue
    have hrendered := ((Finisher.get?_require _ _ _ _ _).mp hvalue).1
    rw [get?_consumed hsource happly hfield] at hrendered
    cases hrendered

/-- **Every purchase settles its buyer**, whatever the event holds. -/
theorem perform_settles_buyer {event : Json} {call : Call}
    (h : trackPurchase.perform event = .ok call) :
    ∃ source, trackPurchase.source event = .ok source ∧ BuyerSettled source call.data := by
  obtain ⟨source, hsource, hrun⟩ := trackPurchase.perform_eq_ok h
  have hdistinct := trackPurchase_readsUser.distinct_source hsource
  exact ⟨source, hsource, purchase_run_settles hdistinct hrun⟩

/-- An order of a guest whose attributes claim to be a customer. -/
def guestEvent : Json :=
  .obj [("anonymousId", .str "anon-7"),
    ("properties", .obj [("order_id", .bool true), ("email", .null), ("coupon", .str "SPRING"),
      ("friendbuyAttributes", .obj [("customerId", .arr []), ("customer", .obj [("id", .str "1")]),
        ("email", .str "a@b.c"), ("shop", .str "north")])])]

def guestCall : Call :=
  ⟨"purchase", [("id", .str "true"), ("couponCode", .str "SPRING"), ("shop", .str "north")]⟩

theorem guestEvent_settled :
    trackPurchase.perform guestEvent = .ok guestCall ∧
      ∃ source, trackPurchase.source guestEvent = .ok source ∧
        BuyerSettled source guestCall.data := by
  have hcall : trackPurchase.perform guestEvent = .ok guestCall := rfl
  exact ⟨hcall, perform_settles_buyer hcall⟩

/-! ## All calls -/

lemma exists_toText_of_kind {user : Json}
    (h : user.kind ∈ [Json.Kind.string, Json.Kind.number, Json.Kind.boolean]) :
    ∃ id, Coercion.toText user = some (.str id) := by
  cases user <;> simp [Json.kind] at h <;> exact ⟨_, rfl⟩

/-- **The user of an event is the customer of its calls.**  Whatever else the event holds, a call
that is made of it has the text of the user as its identifier, at the top or in the buyer. -/
theorem perform_identifies {members : Record} {user : Json}
    (huser : Entries.get? members "userId" = some user)
    (hkind : user.kind ∈ [Json.Kind.string, Json.Kind.number, Json.Kind.boolean]) :
    ∃ id, Coercion.toText user = some (.str id) ∧
      (∀ action ∈ [trackCustomer, trackSignUp, trackCustomEvent], ∀ call,
        action.perform (.obj members) = .ok call →
          Entries.get? call.data "id" = some (.str id)) ∧
      ∀ call, trackPurchase.perform (.obj members) = .ok call →
        ∃ buyer, Entries.get? call.data "customer" = some (.obj buyer) ∧
          Entries.get? buyer "id" = some (.str id) := by
  obtain ⟨id, hid⟩ := exists_toText_of_kind hkind
  refine ⟨id, hid, fun action haction call hcall => ?_, fun call hcall => ?_⟩
  · simp only [List.mem_cons, List.not_mem_nil, or_false] at haction
    rcases haction with rfl | rfl | rfl
    · exact trackCustomer_readsUser.get?_id customer_places rfl hcall huser hid
    · exact trackSignUp_readsUser.get?_id signUp_places rfl hcall huser hid
    · exact trackCustomEvent_readsUser.get?_id customEvent_places rfl hcall huser hid
  · obtain ⟨source, hsource, hrun⟩ := trackPurchase.perform_eq_ok hcall
    have hcustomer := trackPurchase_readsUser.get?_customerId hsource huser
    have hdistinct := trackPurchase_readsUser.distinct_source hsource
    have hsome : (Entries.get? source "customerId").bind Coercion.toText = some (.str id) := by
      rw [hcustomer]
      exact hid
    exact ⟨profile source, (purchase_run_settles hdistinct hrun).identified hsome⟩

/-- An event of a known user, with other identifiers wherever attributes can stand. -/
def spoofedMembers : Record :=
  let spoof : Json := .obj [("customerId", .str "9"), ("id", .str "9"), ("userId", .str "9"),
    ("customer", .obj [("id", .str "9")]), ("eventProperties", .obj [("customerId", .str "9")])]
  let properties : Json := .obj [("customerId", .str "9"), ("id", .str "9"),
    ("customer", .str "9"), ("friendbuyAttributes", spoof)]
  [("traits", properties), ("properties", properties), ("event", .str "Visited"),
    ("customerId", .str "9"), ("userId", .bool true)]

theorem spoofed_identified :
    Entries.get? spoofedMembers "userId" = some (.bool true) ∧
      (Json.bool true).kind ∈ [Json.Kind.string, Json.Kind.number, Json.Kind.boolean] ∧
      (∃ call, trackCustomEvent.perform (.obj spoofedMembers) = .ok call ∧
        Entries.get? call.data "id" = some (.str "true")) ∧
      ∃ call, trackPurchase.perform (.obj spoofedMembers) = .ok call ∧
        ∃ buyer, Entries.get? call.data "customer" = some (.obj buyer) ∧
          Entries.get? buyer "id" = some (.str "true") := by
  have huser : Entries.get? spoofedMembers "userId" = some (.bool true) := by decide
  have hkind : (Json.bool true).kind ∈ [Json.Kind.string, Json.Kind.number, Json.Kind.boolean] := by
    decide
  obtain ⟨id, hid, htop, hbuyer⟩ := perform_identifies huser hkind
  obtain rfl : "true" = id := by simpa [Coercion.toText] using hid
  obtain ⟨visit, hvisit⟩ : ∃ call, trackCustomEvent.perform (.obj spoofedMembers) = .ok call :=
    ⟨_, rfl⟩
  obtain ⟨order, horder⟩ : ∃ call, trackPurchase.perform (.obj spoofedMembers) = .ok call := ⟨_, rfl⟩
  exact ⟨huser, hkind, ⟨visit, hvisit, htop trackCustomEvent (by simp) visit hvisit⟩,
    ⟨order, horder, hbuyer order horder⟩⟩

end EventPayload.Friendbuy
