import EventPayload.Proofs.Finishing
import EventPayload.Proofs.Shapes

/-!
# The order of a payload

A payload is an ordered record.  This file says in which order its keys stand, from the rules and
the order of the source alone.

* `Rule.produces` — **whether a rule makes something of a value**; `Rule.isSome_of_value` ties it to
  rules at work.
* `Ruleset.place?`, `Ruleset.places` — where a field writes, if its rule makes something of its
  value, and where the fields of a source write, in their order.  A coercion without a result takes
  no place.
* `map_fst_written` — the places are those of what is written.
* `Ruleset.topKeys` — **the keys at the top**: first the roots of the places, then what is passed on.
* `keys_apply`, `keys_members_apply` — the keys at the top of what the rules make, and those inside an
  object that is written into.
* `run_keeps_order` — the same of what a mapping makes whose finishing steps only remove objects.
-/

namespace EventPayload

/-! ## Places -/

/-- **Whether a rule makes something of a value.** -/
def Rule.produces : Rule → Json → Bool
  | drop, _ => false
  | copy, _ | moveTo _, _ => true
  | coerce _ coercion, value => (coercion.apply value).isSome
  | each _ _, .arr items => !items.isEmpty
  | each _ _, _ => false

lemma Rule.isSome_of_value {rule : Rule} {field : String} {value : Json} {made : Option Json}
    (h : rule.value field value = .ok made) : made.isSome = rule.produces value := by
  cases rule with
  | each defaults rules =>
    cases value with
    | arr items =>
      rw [Rule.value_each_arr, map_eq_ok_iff] at h
      obtain ⟨mapped, hmapped, rfl⟩ := h
      have hempty := Ruleset.isEmpty_applyEach hmapped
      cases items with
      | nil => simp [produces, hempty.mpr rfl]
      | cons item rest => simp [produces, hempty]
    | null =>
      obtain rfl : none = made := by simpa [Rule.value] using h
      rfl
    | _ => simp [Rule.value] at h
  | _ =>
    rw [Rule.value] at h
    rw [← Except.ok.inj h]
    rfl

/-- **The place of a field**, if its rule makes something of its value. -/
def Ruleset.place? (rules : Ruleset) (entry : String × Json) : Option Slot :=
  (Entries.get? rules entry.1).bind fun rule =>
    if rule.produces entry.2 then rule.slot? entry.1 else none

/-- **The places of a source**, in the order of its fields. -/
def Ruleset.places (rules : Ruleset) (source : Record) : List Slot :=
  source.filterMap rules.place?

/-- The key of a slot inside the object at `outer`. -/
def Slot.innerKey? (outer : String) : Slot → Option String
  | top _ => none
  | within key inner => if key = outer then some inner else none

section Rulesets

variable {rules : Ruleset} {leftovers : Leftovers} {source rendered : Record}

lemma map_fst_written? {entry : String × Json}
    (h : ∃ fate, rules.decide entry.1 entry.2 = .ok fate) :
    (written? rules.decide entry).map Prod.fst = rules.place? entry := by
  have hmade := (Ruleset.fate_eq_ok_iff rules entry.1 entry.2).mp h
  rw [written?, Ruleset.decide, Ruleset.fate_eq, Ruleset.place?]
  cases hrule : Entries.get? rules entry.1 with
  | none => rfl
  | some rule =>
    obtain ⟨made, hvalue⟩ := hmade rule hrule
    simp only [hvalue, Option.bind_some, ← Rule.isSome_of_value hvalue]
    cases rule.slot? entry.1 <;> cases made <;> rfl

/-- **The places of a source are those of what is written for it.** -/
theorem map_fst_written (h : ∀ entry ∈ source, ∃ fate, rules.decide entry.1 entry.2 = .ok fate) :
    (written rules.decide source).map Prod.fst = rules.places source := by
  rw [written, List.map_filterMap, Ruleset.places]
  exact List.filterMap_congr fun entry hentry => map_fst_written? (h entry hentry)

lemma keys_unruled (source : Record) :
    Entries.keys (unruled rules.decide source)
      = (Entries.keys source).filter fun field => Entries.get? rules field = none := by
  rw [unruled, Entries.keys, Entries.keys, List.filter_map]
  refine congrArg _ (List.filter_congr fun entry _ => ?_)
  rw [isUnruled_decide, Function.comp_apply, Bool.eq_iff_iff, Option.isNone_iff_eq_none,
    decide_eq_true_iff]

/-- The keys that the rules write under, in the order of the first places under them. -/
def Ruleset.roots (rules : Ruleset) (source : Record) : List String :=
  ((rules.places source).map Slot.root).eraseDups

/-- The fields without a rule, in their order, but for those whose key is written under. -/
def Ruleset.passed (rules : Ruleset) (source : Record) : List String :=
  (Entries.keys source).filter fun field =>
    Entries.get? rules field = none ∧ field ∉ rules.roots source

/-- **The keys at the top**: first those that are written under, then what is passed on. -/
def Ruleset.topKeys (rules : Ruleset) (leftovers : Leftovers) (source : Record) : List String :=
  match leftovers with
  | .drop => rules.roots source
  | .pass => rules.roots source ++ rules.passed source

/-- **What the rules make has these keys**, in this order. -/
theorem keys_apply (hsource : Entries.Distinct source)
    (happly : rules.apply leftovers source = .ok rendered) :
    Entries.keys rendered = rules.topKeys leftovers source := by
  obtain ⟨hfates, rfl⟩ := (assemble_eq_ok_iff leftovers source rendered).mp happly
  have hroots : Entries.keys (writeAll (written rules.decide source) []) = rules.roots source := by
    rw [keys_writeAll, Ruleset.roots, ← map_fst_written hfates, List.map_map]
    rfl
  cases leftovers with
  | drop => exact hroots
  | pass =>
    have hunruled : Entries.Distinct (unruled rules.decide source) :=
      hsource.sublist (List.filter_sublist.map _)
    rw [compose, Entries.keys_addMissing hunruled, hroots, keys_unruled, List.filter_filter,
      Ruleset.topKeys, Ruleset.passed]
    simp only [Bool.decide_and, Bool.and_comm]

/-- **The keys inside an object** that the rules write into. -/
theorem keys_members_apply (hsource : Entries.Distinct source) (hrules : Uncontested rules)
    (happly : rules.apply leftovers source = .ok rendered) {outer inner : String}
    (hplace : .within outer inner ∈ rules.places source) :
    ∃ members, Entries.get? rendered outer = some (.obj members) ∧
      Entries.keys members = (rules.places source).filterMap (Slot.innerKey? outer) := by
  obtain ⟨hfates, rfl⟩ := (assemble_eq_ok_iff leftovers source rendered).mp happly
  have hun := unclashing_written hsource hrules
  rw [← map_fst_written hfates] at hplace ⊢
  obtain ⟨⟨slot, value⟩, hwrite, rfl⟩ := List.mem_map.mp hplace
  refine ⟨_, get?_compose_of_written leftovers (get?_writeAll_within hun hwrite), ?_⟩
  -- the writes inside one object have different keys, so each of them goes last
  have hmembers : Entries.ofWrites (inside outer (written rules.decide source))
      = inside outer (written rules.decide source) :=
    Entries.overlay_of_distinct (hun.distinct_inside outer)
  rw [hmembers, inside, Entries.keys, List.map_filterMap, List.filterMap_map]
  refine List.filterMap_congr fun w _ => ?_
  cases hslot : w.1 with
  | top name => simp [hslot, Slot.innerKey?]
  | within key place => by_cases hkey : key = outer <;> simp [hslot, Slot.innerKey?, hkey]

end Rulesets

/-! ## Mappings -/

/-- **The order of a payload** that a mapping makes of a source. -/
structure KeepsOrder (mapping : Mapping) (source output : Record) : Prop where
  /-- At the top the finishing steps only leave keys out, those of the objects that they remove. -/
  top : ∃ rendered, Ruleset.apply mapping.rules mapping.leftovers source = .ok rendered ∧
    Entries.keys output = (Ruleset.topKeys mapping.rules mapping.leftovers source).filter fun key =>
      !mapping.finishers.any fun step => step.removes rendered key
  /-- An object that is written into has its keys in the order of the places. -/
  inside : ∀ outer inner, outer ∈ Entries.keys output →
    .within outer inner ∈ Ruleset.places mapping.rules source →
    ∃ members, Entries.get? output outer = some (.obj members) ∧
      Entries.keys members
        = (Ruleset.places mapping.rules source).filterMap (Slot.innerKey? outer)

/-- **The order of the source decides the order of the payload**, if the finishing steps of the
mapping only remove objects. -/
theorem run_keeps_order (mapping : Mapping)
    (hfinishers : ∀ step ∈ mapping.finishers, ∃ object key, step = .require object key)
    {source output : Record} (hsource : Entries.Distinct source)
    (hrun : mapping.run source = .ok output) : KeepsOrder mapping source output := by
  obtain ⟨rendered, happly, rfl⟩ := (mapping.run_eq_ok_iff source output).mp hrun
  rw [Finisher.runAll_require_eq_filter hfinishers]
  refine ⟨⟨rendered, happly, ?_⟩, fun outer inner houter hplace => ?_⟩
  · rw [← keys_apply hsource happly, Entries.keys, Entries.keys, List.filter_map]
    rfl
  · obtain ⟨members, hread, hkeys⟩ :=
      keys_members_apply hsource mapping.lawful.uncontested happly hplace
    have hfilter := Entries.get?_filter
      (fun key => !mapping.finishers.any fun step => step.removes rendered key) rendered outer
    rw [← Entries.get?_isSome_iff, hfilter] at houter
    refine ⟨members, ?_, hkeys⟩
    rw [hfilter]
    split at houter
    · next hkept => rw [if_pos hkept, hread]
    · cases houter

/-- A parcel whose buyer and receiver each have an object of their own. -/
def parcelMapping : Mapping where
  rules := [("mail", .moveTo (.within "buyer" "mail")),
    ("buyerId", .coerce (some (.within "buyer" "id")) .text), ("fragile", .coerce none .text),
    ("to", .moveTo (.within "gift" "to")), ("note", .moveTo (.within "gift" "note")), ("tag", .drop)]
  leftovers := .pass
  finishers := [.require "buyer" "id", .require "gift" "to"]
  sound := by decide +kernel

/-- The buyer's identifier is no text, and the object for the gift takes the place of another
value. -/
def parcel : Record :=
  [("shop", .str "EU"), ("buyerId", .arr []), ("note", .str "hi"), ("mail", .str "a@b.c"),
    ("gift", .str "yes"), ("to", .str "Bo"), ("fragile", .bool true), ("floor", .null)]

def parcelPayload : Record :=
  [("gift", .obj [("note", .str "hi"), ("to", .str "Bo")]), ("fragile", .str "true"),
    ("shop", .str "EU"), ("floor", .null)]

example : Ruleset.topKeys parcelMapping.rules parcelMapping.leftovers parcel
    = ["gift", "buyer", "fragile", "shop", "floor"] := rfl

theorem parcel_keeps_order :
    (∀ step ∈ parcelMapping.finishers, ∃ object key, step = .require object key) ∧
      Entries.Distinct parcel ∧ parcelMapping.run parcel = .ok parcelPayload ∧
      KeepsOrder parcelMapping parcel parcelPayload := by
  have hfinishers : ∀ step ∈ parcelMapping.finishers, ∃ object key, step = .require object key := by
    intro step hstep
    simp only [parcelMapping, List.mem_cons, List.not_mem_nil, or_false] at hstep
    obtain rfl | rfl := hstep
    · exact ⟨"buyer", "id", rfl⟩
    · exact ⟨"gift", "to", rfl⟩
  have hrun : parcelMapping.run parcel = .ok parcelPayload := rfl
  exact ⟨hfinishers, by decide, hrun, run_keeps_order parcelMapping hfinishers (by decide) hrun⟩

end EventPayload
