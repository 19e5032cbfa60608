import EventPayload.Friendbuy.Purchase
import EventPayload.Friendbuy.SignUp
import EventPayload.Proofs.Finishing
import EventPayload.Proofs.Payload

/-!
# Customer profiles

A customer is described by eleven fields.  Some calls put them at the top of the payload, one puts
them into an object of it.  This file says once what they amount to, wherever they go.

* `customerFields`, `profile` — **the profile of a source**: what its customer fields make, under the
  names that a profile has for them.
* `Places` — a ruleset that treats the customer fields as a placement has it, other fields aside.
* `written?_of_places`, `written_of_places` — what such a ruleset writes for customer fields is the
  profile, at the slots of the placement.
* `inside_written` — and if no other field writes under the placement's object, what is written
  inside that object, for any source, is the profile.
* `placements_agree` — hence a sign-up and a purchase make the same of a record of customer fields,
  but for the object around it and for customers without an identifier.
-/

namespace EventPayload

namespace Friendbuy

/-! ## Profiles -/

/-- The fields that describe a customer. -/
def customerFields : List String :=
  keptFields ++ ["customerId", "age", "birthday"]

/-- The name of a customer field in a profile. -/
def profileKey (field : String) : String :=
  if field = "customerId" then "id" else field

/-- What a profile has for the value of a customer field. -/
def profileValue (field : String) (value : Json) : Option Json :=
  if field = "customerId" then Coercion.toText value
  else if field = "age" then Coercion.toInteger value
  else if field = "birthday" then Coercion.toDate value
  else some value

/-- What a field adds to a profile. -/
def profilePart? (entry : String × Json) : Option (String × Json) :=
  if entry.1 ∈ customerFields then
    (profileValue entry.1 entry.2).map fun value => (profileKey entry.1, value)
  else none

/-- **The profile of a source.**  The values that its customer fields produce, in its order. -/
def profile (source : Record) : Record :=
  source.filterMap profilePart?

/-! ## Placements -/

/-- The rule for a customer field makes what the profile has, at the slot of the placement. -/
lemma exists_customerRule (placement : Placement) {field : String} (h : field ∈ customerFields) :
    ∃ rule, Entries.get? (customerRules placement) field = some rule ∧
      rule.slot? field = some (placement.slot (profileKey field)) ∧
      ∀ value, rule.value field value = .ok (profileValue field value) := by
  simp only [customerFields, keptFields, List.cons_append, List.nil_append, List.mem_cons,
    List.not_mem_nil, or_false] at h
  rcases h with rfl | rfl | rfl | rfl | rfl | rfl | rfl | rfl | rfl | rfl | rfl <;>
    cases placement <;> exact ⟨_, rfl, rfl, fun _ => rfl⟩

/-- **A ruleset places the customer fields** if it has the rules of the placement for them. -/
def Places (placement : Placement) (rules : Ruleset) : Prop :=
  ∀ field ∈ customerFields, Entries.get? rules field = Entries.get? (customerRules placement) field

section Placed

variable {placement : Placement} {rules : Ruleset} (hplaces : Places placement rules)

include hplaces

/-- What a customer field writes is its entry in the profile. -/
lemma written?_of_places {entry : String × Json} (h : entry.1 ∈ customerFields) :
    written? rules.decide entry
      = (profilePart? entry).map fun place => (placement.slot place.1, place.2) := by
  obtain ⟨rule, hrule, hslot, hvalue⟩ := exists_customerRule placement h
  rw [written?, Ruleset.decide, Ruleset.fate_eq, hplaces _ h, hrule]
  simp only [hvalue, hslot, profilePart?, h, if_true]
  cases profileValue entry.1 entry.2 <;> rfl

/-- What a record of customer fields writes is its profile. -/
lemma written_of_places {source : Record} (h : ∀ field ∈ Entries.keys source, field ∈ customerFields) :
    written rules.decide source
      = (profile source).map fun place => (placement.slot place.1, place.2) := by
  rw [written, profile, List.map_filterMap]
  refine List.filterMap_congr fun entry hentry => ?_
  exact written?_of_places hplaces (h entry.1 (List.mem_map_of_mem hentry))

/-- A record of customer fields has a rule for each, and none of these rules can fail. -/
lemma apply_of_places (leftovers : Leftovers) {source : Record}
    (h : ∀ field ∈ Entries.keys source, field ∈ customerFields) :
    rules.apply leftovers source
      = .ok (writeAll ((profile source).map fun place => (placement.slot place.1, place.2)) []) := by
  refine (assemble_eq_ok_iff leftovers source _).mpr ⟨fun entry hentry => ?_, ?_⟩
  · have hfield := h entry.1 (List.mem_map_of_mem hentry)
    obtain ⟨rule, hrule, -, hvalue⟩ := exists_customerRule placement hfield
    refine (Ruleset.fate_eq_ok_iff rules entry.1 entry.2).mpr fun other hother => ?_
    rw [hplaces _ hfield, hrule] at hother
    obtain rfl := Option.some.inj hother
    exact ⟨_, hvalue entry.2⟩
  · have hunruled : unruled rules.decide source = [] := by
      refine List.filter_eq_nil_iff.mpr fun entry hentry => ?_
      have hfield := h entry.1 (List.mem_map_of_mem hentry)
      obtain ⟨rule, hrule, -⟩ := exists_customerRule placement hfield
      rw [isUnruled_decide, hplaces _ hfield, hrule]
      simp
    have hwritten := written_of_places hplaces h
    cases leftovers with
    | drop => rw [compose, hwritten]
    | pass => rw [compose, hunruled, hwritten]; rfl

end Placed

/-- **What goes into the object of a placement** is the profile, provided that no other field writes
under that object. -/
theorem inside_written {outer : String} {rules : Ruleset} (hplaces : Places (.within outer) rules)
    (hothers : ∀ field rule slot, Entries.get? rules field = some rule → field ∉ customerFields →
      rule.slot? field = some slot → slot.root ≠ outer) (source : Record) :
    inside outer (written rules.decide source) = profile source := by
  rw [inside, written, List.filterMap_filterMap, profile]
  refine List.filterMap_congr fun entry _ => ?_
  by_cases hfield : entry.1 ∈ customerFields
  · rw [written?_of_places hplaces hfield]
    cases profilePart? entry <;> simp [Placement.slot]
  · rw [profilePart?, if_neg hfield]
    cases hwritten : written? rules.decide entry with
    | none => rfl
    | some w =>
      obtain ⟨slot, value⟩ := w
      obtain ⟨rule, hrule, hslot, -⟩ := (written?_decide entry slot value).mp hwritten
      have hroot := hothers entry.1 rule slot hrule hfield hslot
      cases slot with
      | top name => rfl
      | within key inner =>
        have hne : key ≠ outer := hroot
        simp [hne]

/-! ## What a profile holds -/

lemma profilePart?_eq_some_iff (entry place : String × Json) :
    profilePart? entry = some place ↔
      entry.1 ∈ customerFields ∧ profileKey entry.1 = place.1 ∧
        profileValue entry.1 entry.2 = some place.2 := by
  rw [profilePart?]
  by_cases hfield : entry.1 ∈ customerFields
  · simp only [hfield, if_true, true_and]
    cases profileValue entry.1 entry.2 <;> simp [Prod.ext_iff]
  · simp [hfield]

lemma mem_profile (source : Record) (key : String) (value : Json) :
    (key, value) ∈ profile source ↔
      ∃ field given, (field, given) ∈ source ∧ field ∈ customerFields ∧ profileKey field = key ∧
        profileValue field given = some value := by
  simp only [profile, List.mem_filterMap, profilePart?_eq_some_iff, Prod.exists]

/-- Different customer fields have different names in a profile. -/
lemma profileKey_inj {field other : String} (hfield : field ∈ customerFields)
    (hother : other ∈ customerFields) (h : profileKey field = profileKey other) : field = other := by
  have hinj : ∀ a ∈ customerFields, ∀ b ∈ customerFields, profileKey a = profileKey b → a = b := by
    decide
  exact hinj field hfield other hother h

lemma distinct_profile {source : Record} (h : Entries.Distinct source) :
    Entries.Distinct (profile source) := by
  have hfields := (Entries.distinct_iff_pairwise source).mp h
  rw [Entries.distinct_iff_pairwise, profile]
  refine List.Pairwise.filterMap _ (fun a b hne x hx y hy hkeys => hne ?_) hfields
  obtain ⟨ha, hx, -⟩ := (profilePart?_eq_some_iff a x).mp hx
  obtain ⟨hb, hy, -⟩ := (profilePart?_eq_some_iff b y).mp hy
  exact profileKey_inj ha hb (by rw [hx, hy, hkeys])

lemma exists_str_of_toText {value made : Json} (h : Coercion.toText value = some made) :
    ∃ s, made = .str s := by
  cases value <;> simp only [Coercion.toText, Option.some.injEq, reduceCtorEq] at h <;>
    exact ⟨_, h.symm⟩

/-- The identifier in a profile is the text of a `customerId`. -/
lemma mem_profile_id {source : Record} {value : Json} :
    ("id", value) ∈ profile source ↔
      ∃ given, ("customerId", given) ∈ source ∧ Coercion.toText given = some value := by
  rw [mem_profile]
  constructor
  · rintro ⟨field, given, hmem, hfield, hkey, hmade⟩
    obtain rfl : field = "customerId" := profileKey_inj hfield (by decide) hkey
    exact ⟨given, hmem, hmade⟩
  · rintro ⟨given, hmem, hmade⟩
    exact ⟨"customerId", given, hmem, by decide, rfl, hmade⟩

/-! ## The two placements -/

lemma places_of_append {placement : Placement} {before after : Ruleset}
    (h : ∀ field ∈ customerFields, field ∉ Entries.keys before) :
    Places placement (before ++ customerRules placement ++ after) := by
  intro field hfield
  obtain ⟨rule, hrule, -⟩ := exists_customerRule placement hfield
  have hbefore := (Entries.get?_eq_none_iff before field).mpr (h field hfield)
  rw [Entries.get?_append, Entries.get?_append, hbefore, hrule]
  rfl

lemma signUp_places : Places .top signUpMapping.rules := fun _ _ => rfl

lemma purchase_places : Places (.within "customer") purchaseMapping.rules := by
  rw [← List.append_nil purchaseMapping.rules]
  exact places_of_append (by decide)

lemma signUp_run {source : Record} (h : ∀ field ∈ Entries.keys source, field ∈ customerFields) :
    signUpMapping.run source = .ok (Entries.ofWrites (profile source)) := by
  rw [Mapping.run_eq_ok_iff]
  refine ⟨_, apply_of_places signUp_places .pass h, ?_⟩
  exact writeAll_top (profile source) []

lemma purchase_run {source : Record} (h : ∀ field ∈ Entries.keys source, field ∈ customerFields) :
    purchaseMapping.run source
      = .ok (Finisher.run
          (if profile source = [] then [] else [("customer", .obj (Entries.ofWrites (profile source)))])
          (.require "customer" "id")) := by
  rw [Mapping.run_eq_ok_iff]
  refine ⟨_, apply_of_places purchase_places .pass h, ?_⟩
  rw [← writeAll_within]
  rfl

/-- **The two placements agree.**  Of a record of customer fields, in any order and with any values,
a purchase makes one object that holds just what a sign-up makes of it, key order included, if that
has an identifier, and nothing at all otherwise. -/
theorem placements_agree {source : Record}
    (h : ∀ field ∈ Entries.keys source, field ∈ customerFields) :
    ∃ buyer, signUpMapping.run source = .ok buyer ∧
      purchaseMapping.run source
        = .ok (if Entries.contains buyer "id" then [("customer", .obj buyer)] else []) := by
  refine ⟨_, signUp_run h, ?_⟩
  rw [purchase_run h]
  generalize hbuyer : Entries.ofWrites (profile source) = buyer
  cases hid : Entries.get? buyer "id" with
  | none =>
    have hcontains : Entries.contains buyer "id" = false := by simp [Entries.contains, hid]
    split
    · simp [hcontains, Finisher.run, Finisher.lacks]
    · simp [hcontains, hid, Finisher.run, Finisher.lacks, Entries.get?, Entries.erase]
  | some value =>
    have hcontains : Entries.contains buyer "id" = true := by simp [Entries.contains, hid]
    have hmem : ("id", value) ∈ profile source := by
      rw [← hbuyer] at hid
      rcases Entries.mem_or_of_get?_overlay hid with hmem | hnone
      · exact hmem
      · cases hnone
    have hne : profile source ≠ [] := List.ne_nil_of_mem hmem
    -- an identifier is a text, so the requirement is met
    obtain ⟨given, -, htext⟩ := mem_profile_id.mp hmem
    obtain ⟨s, rfl⟩ := exists_str_of_toText htext
    simp [hne, hcontains, hid, Finisher.run, Finisher.lacks, Entries.get?, Json.isNull]

/-- A customer with fields of all kinds, among them some that come to nothing. -/
def signedUp : Record :=
  [("age", .str " 36 "), ("email", .null), ("customerId", .bool true), ("birthday", .str "Dec 10"),
    ("name", .obj [("id", .str "7")])]

def signedUpProfile : Record :=
  [("age", .num (.integer ⟨36, by decide, by decide⟩)), ("email", .null), ("id", .str "true"),
    ("name", .obj [("id", .str "7")])]

theorem signedUp_bought :
    (∀ field ∈ Entries.keys signedUp, field ∈ customerFields) ∧
      signUpMapping.run signedUp = .ok signedUpProfile ∧
      purchaseMapping.run signedUp = .ok [("customer", .obj signedUpProfile)] := by
  have hfields : ∀ field ∈ Entries.keys signedUp, field ∈ customerFields := by decide
  have hsignUp : signUpMapping.run signedUp = .ok signedUpProfile := rfl
  obtain ⟨buyer, hrun, hbought⟩ := placements_agree hfields
  obtain rfl : signedUpProfile = buyer := by simpa [hsignUp] using hrun
  exact ⟨hfields, hsignUp, hbought⟩

end Friendbuy

end EventPayload
