import EventPayload.Proofs.Reordering

/-!
# A field has a say in its own place only

Two sources that differ in one field may render payloads that differ where that field writes.  This
file says that they differ nowhere else.

* `AlikeBut` — **records that differ at one key only**, up to the order of keys.
* `servesAlike_of_alikeBut` — a slot that the field does not write is served alike by both sources.
* `rel_get?_of_alikeBut` — hence the payloads read alike at every key that the field neither writes
  under nor is passed on to.
* `Isolated` — what that comes to for a field without a rule, a field that is dropped, a field that
  writes at the top or inside an object.
* `run_isolates` — **mappings isolate fields**.
-/

namespace EventPayload

/-- **Records that differ at one key only**: without it they are equal up to the order of keys. -/
def AlikeBut (key : String) (record other : Record) : Prop :=
  (Json.obj (Entries.erase record key)).Alike (.obj (Entries.erase other key))

instance (key : String) (record other : Record) : Decidable (AlikeBut key record other) :=
  inferInstanceAs (Decidable (Json.Alike _ _))

lemma AlikeBut.symm {key : String} {record other : Record} (h : AlikeBut key record other) :
    AlikeBut key other record :=
  Json.Alike.symm h

lemma AlikeBut.rel_get? {key : String} {record other : Record} (h : AlikeBut key record other)
    {place : String} (hne : place ≠ key) :
    Option.Rel Json.Alike (Entries.get? record place) (Entries.get? other place) := by
  have hrel := Json.Alike.get? h place
  rwa [Entries.get?_erase, Entries.get?_erase, if_neg (Ne.symm hne), if_neg (Ne.symm hne)] at hrel

lemma alikeBut_of_rel_get? {key : String} {record other : Record} (hrecord : Entries.Distinct record)
    (hother : Entries.Distinct other)
    (h : ∀ place, place ≠ key →
      Option.Rel Json.Alike (Entries.get? record place) (Entries.get? other place)) :
    AlikeBut key record other := by
  refine (Json.alike_obj_iff _ _).mpr ⟨Entries.distinct_erase hrecord key,
    Entries.distinct_erase hother key, fun place => ?_⟩
  rw [Entries.get?_erase, Entries.get?_erase]
  split
  · exact .none
  · next hne => exact h place (Ne.symm hne)

/-! ## Rulesets -/

section Rulesets

variable {rules : Ruleset} {leftovers : Leftovers} {field : String}
  {source other output output' : Record}

/-- A slot that the field does not write is served alike. -/
lemma servesAlike_of_alikeBut (hrules : rules.KeepsAlike) (h : AlikeBut field source other)
    {slot : Slot}
    (hslot : ∀ rule, Entries.get? rules field = some rule → rule.slot? field ≠ some slot) :
    ServesAlike rules source other slot := by
  intro contributor result hc
  refine hc.alike hrules (h.rel_get? ?_)
  rintro rfl
  obtain ⟨rule, -, hrule, -, hwrites, -⟩ := hc
  exact hslot rule hrule hwrites

/-- The payloads read alike at a key that the field does not write under, unless it is passed on
there. -/
lemma rel_get?_of_alikeBut (hrules : rules.KeepsAlike) (h : AlikeBut field source other)
    (hr : Renders rules leftovers source output) (hr' : Renders rules leftovers other output')
    {key : String} (hpassed : Entries.get? rules key = none → key ≠ field)
    (hslot : ∀ rule slot, Entries.get? rules field = some rule → rule.slot? field = some slot →
      slot.root ≠ key) :
    Option.Rel Json.Alike (Entries.get? output key) (Entries.get? output' key) := by
  have hunwritten : ∀ slot, slot.root = key → ∀ rule, Entries.get? rules field = some rule →
      rule.slot? field ≠ some slot :=
    fun slot hroot rule hrule hwrites => hslot rule slot hrule hwrites hroot
  exact hr.rel_get? hr' (fun slot hroot => servesAlike_of_alikeBut hrules h (hunwritten slot hroot))
    (fun slot hroot => servesAlike_of_alikeBut hrules h.symm (hunwritten slot hroot))
    fun hnone => h.rel_get? (hpassed hnone)

/-- Inside an object that other fields write into as well, the payloads differ at most at the key
that the field writes. -/
lemma members_alikeBut (hrules : rules.KeepsAlike) (h : AlikeBut field source other)
    (hr : Renders rules leftovers source output) (hr' : Renders rules leftovers other output')
    {rule : Rule} {outer inner : String} (hrule : Entries.get? rules field = some rule)
    (hwrites : rule.slot? field = some (.within outer inner)) {sibling place : String} {result : Json}
    (hsibling : sibling ≠ field)
    (hc : Contributes rules source sibling (.within outer place) result) :
    ∃ members members', Entries.get? output outer = some (.obj members) ∧
      Entries.get? output' outer = some (.obj members') ∧ AlikeBut inner members members' := by
  obtain ⟨result', hc', -⟩ := hc.alike hrules (h.rel_get? hsibling)
  obtain ⟨members, hobject, hdistinct, hread⟩ := hr.within hc
  obtain ⟨members', hobject', hdistinct', hread'⟩ := hr'.within hc'
  refine ⟨members, members', hobject, hobject', alikeBut_of_rel_get? hdistinct hdistinct' ?_⟩
  intro key hkey
  have hunwritten : ∀ other, Entries.get? rules field = some other →
      other.slot? field ≠ some (.within outer key) := by
    intro other hother hslot
    obtain rfl : rule = other := Option.some.inj (hrule.symm.trans hother)
    rw [hwrites, Option.some.injEq, Slot.within.injEq] at hslot
    exact hkey hslot.2.symm
  exact rel_get?_of_contributions (hread key) (hread' key)
    (servesAlike_of_alikeBut hrules h hunwritten) (servesAlike_of_alikeBut hrules h.symm hunwritten)

end Rulesets

/-! ## Mappings -/

/-- **A field is isolated** if two payloads differ at most where the field has a say. -/
structure Isolated (rules : Ruleset) (field : String) (source output output' : Record) : Prop where
  /-- A field without a rule can only be passed on. -/
  unruled : Entries.get? rules field = none → AlikeBut field output output'
  /-- A field that is dropped has no say at all. -/
  dropped : Entries.get? rules field = some .drop → (Json.obj output).Alike (.obj output')
  /-- Any other field has a say under one key at the top. -/
  atRoot : ∀ rule slot, Entries.get? rules field = some rule → rule.slot? field = some slot →
    AlikeBut slot.root output output'
  /-- Inside an object that another field writes into as well, it has a say at one key. -/
  inside : ∀ rule outer inner, Entries.get? rules field = some rule →
    rule.slot? field = some (.within outer inner) →
    (∃ sibling place result, sibling ≠ field ∧
      Contributes rules source sibling (.within outer place) result) →
    ∃ members members', Entries.get? output outer = some (.obj members) ∧
      Entries.get? output' outer = some (.obj members') ∧ AlikeBut inner members members'

/-- **Mappings isolate fields.**  If two sources differ in one field only, the payloads that a mapping
without finishing steps makes of them differ at most where that field has a say. -/
theorem run_isolates (mapping : Mapping) (hplain : mapping.finishers = [])
    (hdefaults : mapping.DefaultsWellFormed) {field : String} {source other output output' : Record}
    (hsource : Entries.Distinct source) (hother : Entries.Distinct other)
    (hsame : AlikeBut field source other) (hrun : mapping.run source = .ok output)
    (hrun' : mapping.run other = .ok output') :
    Isolated mapping.rules field source output output' := by
  have hrules := mapping.rules_keepsAlike hdefaults
  rw [Mapping.run_eq_ok_iff, hplain] at hrun hrun'
  obtain ⟨_, happly, rfl⟩ := hrun
  obtain ⟨_, happly', rfl⟩ := hrun'
  have hr := apply_renders hsource mapping.lawful.uncontested happly
  have hr' := apply_renders hother mapping.lawful.uncontested happly'
  refine ⟨fun hnone => ?_, fun hdrop => ?_, fun rule slot hrule hslot => ?_, ?_⟩
  · refine alikeBut_of_rel_get? hr.distinct hr'.distinct fun key hkey => ?_
    exact rel_get?_of_alikeBut hrules hsame hr hr' (fun _ => hkey) (by simp [hnone])
  · refine (Json.alike_obj_iff _ _).mpr ⟨hr.distinct, hr'.distinct, fun key => ?_⟩
    refine rel_get?_of_alikeBut hrules hsame hr hr' ?_ ?_
    · rintro hnone rfl
      simp [hdrop] at hnone
    · intro rule slot hrule hslot
      obtain rfl : Rule.drop = rule := Option.some.inj (hdrop.symm.trans hrule)
      cases hslot
  · refine alikeBut_of_rel_get? hr.distinct hr'.distinct fun key hkey => ?_
    refine rel_get?_of_alikeBut hrules hsame hr hr' ?_ ?_
    · rintro hnone rfl
      simp [hrule] at hnone
    · intro again place hagain hplace
      obtain rfl : rule = again := Option.some.inj (hrule.symm.trans hagain)
      obtain rfl : slot = place := Option.some.inj (hslot.symm.trans hplace)
      exact Ne.symm hkey
  · rintro rule outer inner hrule hwrites ⟨sibling, place, result, hsibling, hc⟩
    exact members_alikeBut hrules hsame hr hr' hrule hwrites hsibling hc

/-- People whose names stand in an object of their own. -/
def personMapping : Mapping where
  rules := [("first", .moveTo (.within "name" "first")), ("last", .moveTo (.within "name" "last")),
    ("phone", .copy), ("token", .drop)]
  leftovers := .pass
  sound := by decide +kernel

/-- A person whose name is given in three ways. -/
def fullPerson : Record :=
  [("last", .str "Bo"), ("name", .str "A. B."), ("first", .str "Ann"), ("phone", .str "5")]

/-- The same person without a last name. -/
def shortPerson : Record :=
  [("phone", .str "5"), ("first", .str "Ann"), ("name", .str "A. B.")]

/-- The object for the name shuts out the plain one; with a last name it comes first. -/
def fullPayload : Record :=
  [("name", .obj [("last", .str "Bo"), ("first", .str "Ann")]), ("phone", .str "5")]

def shortPayload : Record :=
  [("phone", .str "5"), ("name", .obj [("first", .str "Ann")])]

theorem lastName_isolated :
    personMapping.finishers = [] ∧ personMapping.DefaultsWellFormed ∧
      Entries.Distinct fullPerson ∧ Entries.Distinct shortPerson ∧
      AlikeBut "last" fullPerson shortPerson ∧ personMapping.run fullPerson = .ok fullPayload ∧
      personMapping.run shortPerson = .ok shortPayload ∧
      Isolated personMapping.rules "last" fullPerson fullPayload shortPayload := by
  have hdefaults : personMapping.DefaultsWellFormed :=
    Mapping.defaultsWellFormed_of_flat (by decide)
  have hfull : Entries.Distinct fullPerson := by decide
  have hshort : Entries.Distinct shortPerson := by decide
  have hsame : AlikeBut "last" fullPerson shortPerson := by decide
  have hrun : personMapping.run fullPerson = .ok fullPayload := rfl
  have hrun' : personMapping.run shortPerson = .ok shortPayload := rfl
  exact ⟨rfl, hdefaults, hfull, hshort, hsame, hrun, hrun',
    run_isolates personMapping rfl hdefaults hfull hshort hsame hrun hrun'⟩

end EventPayload
