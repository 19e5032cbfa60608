import EventPayload.Friendbuy.Purchase
import EventPayload.Proofs.Soundness
import EventPayload.Proofs.Writes

/-!
# What a payload holds

The payload of a source record is put together from the fates of its fields.  This file says what
it holds in terms of the rules and the source alone, and that it holds nothing else.

* `written`, `unruled`, `assemble_eq_ok_iff`, `assemble_eq_error_iff` — assembling without the list of
  fates between: what is written, what has no rule, and where it fails.
* `Rule.Makes`, `Contributes` — what a rule makes of a value, and **the contributions** of a source:
  the values that its fields put into the payload, with their slots.
* `unclashing_written` — in a lawful ruleset the contributions of different fields never clash.
* `Renders` — **what a payload must hold**.
* `apply_renders` — a ruleset without contention renders every source it can be applied to.
* `run_renders` — so does every mapping without finishing steps.
-/

namespace EventPayload

/-! ## Assembling -/

section Assembling

variable (fate : String → Json → Except ShapeMismatch Fate)

/-- What is written for a field. -/
def written? (entry : String × Json) : Option (Slot × Json) :=
  match fate entry.1 entry.2 with
  | .ok (.written slot value) => some (slot, value)
  | _ => none

/-- Whether no rule names a field. -/
def isUnruled (entry : String × Json) : Bool :=
  match fate entry.1 entry.2 with
  | .ok .leftover => true
  | _ => false

/-- All that is written for a source, in its order. -/
def written (source : Record) : List (Slot × Json) :=
  source.filterMap (written? fate)

/-- The fields of a source that no rule names. -/
def unruled (source : Record) : Record :=
  source.filter (isUnruled fate)

/-- What is written, and behind it what is left over. -/
def compose (leftovers : Leftovers) (source : Record) : Record :=
  match leftovers with
  | .drop => writeAll (written fate source) []
  | .pass => Entries.addMissing (writeAll (written fate source) []) (unruled fate source)

variable {fate}

lemma filterMap_of_fates {source : Record} {decided : List Decided}
    (h : fates fate source = .ok decided) :
    decided.filterMap Decided.writing? = written fate source ∧
      decided.filterMap Decided.leftover? = unruled fate source := by
  rw [fates, mapM_eq_ok_iff_forall₂] at h
  induction h with
  | nil => exact ⟨rfl, rfl⟩
  | @cons entry d source decided hd _ ih =>
    obtain ⟨hwritten, hunruled⟩ := ih
    rw [map_eq_ok_iff] at hd
    obtain ⟨f, hf, rfl⟩ := hd
    cases f <;>
      simp [written, unruled, written?, isUnruled, hf, Decided.writing?, Decided.leftover?,
        List.filterMap_cons, hwritten, hunruled]

theorem assemble_eq_ok_iff (leftovers : Leftovers) (source output : Record) :
    assemble fate leftovers source = .ok output ↔
      (∀ entry ∈ source, ∃ f, fate entry.1 entry.2 = .ok f) ∧
        compose fate leftovers source = output := by
  have hall : (∃ decided, fates fate source = .ok decided) ↔
      ∀ entry ∈ source, ∃ f, fate entry.1 entry.2 = .ok f := by
    rw [fates, mapM_eq_ok_iff]
    simp
  have hgather : ∀ decided, fates fate source = .ok decided →
      gather leftovers decided = compose fate leftovers source := by
    intro decided hfates
    obtain ⟨hwritten, hunruled⟩ := filterMap_of_fates hfates
    cases leftovers <;> simp only [gather, compose, hwritten, hunruled]
  rw [← hall, assemble, map_eq_ok_iff]
  constructor
  · rintro ⟨decided, hfates, rfl⟩
    exact ⟨⟨decided, hfates⟩, (hgather decided hfates).symm⟩
  · rintro ⟨⟨decided, hfates⟩, rfl⟩
    exact ⟨decided, hfates, hgather decided hfates⟩

theorem assemble_eq_error_iff (leftovers : Leftovers) (source : Record) (cause : ShapeMismatch) :
    assemble fate leftovers source = .error cause ↔
      ∃ before entry after, source = before ++ entry :: after ∧
        (∀ other ∈ before, ∃ f, fate other.1 other.2 = .ok f) ∧
        fate entry.1 entry.2 = .error cause := by
  rw [assemble, map_eq_error_iff, fates, mapM_eq_error_iff]
  simp

end Assembling

/-! ## Contributions -/

/-- **What a rule makes of a value.**  A rule that drops makes nothing, a coercion makes nothing of
some values, and a rule for lists makes nothing of a null or of an empty list. -/
inductive Rule.Makes (value : Json) : Rule → Json → Prop
  | copy : Makes value .copy value
  | moveTo {slot : Slot} : Makes value (.moveTo slot) value
  | coerce {slot : Option Slot} {coercion : Coercion} {result : Json}
      (h : coercion.apply value = some result) : Makes value (.coerce slot coercion) result
  | each {defaults : Record} {rules : Ruleset} {items mapped : List Json} (hlist : value = .arr items)
      (hitems : items ≠ []) (hmapped : rules.applyEach defaults items = .ok mapped) :
      Makes value (.each defaults rules) (.arr mapped)

/-- **The contributions of a source**: `result` goes to `slot` on account of `field`. -/
def Contributes (rules : Ruleset) (source : Record) (field : String) (slot : Slot) (result : Json) :
    Prop :=
  ∃ rule value, Entries.get? rules field = some rule ∧ Entries.get? source field = some value ∧
    rule.slot? field = some slot ∧ rule.Makes value result

lemma Ruleset.isEmpty_applyEach {rules : Ruleset} {defaults : Record} {items mapped : List Json}
    (h : rules.applyEach defaults items = .ok mapped) : mapped.isEmpty = true ↔ items = [] := by
  have hlength := ((mapM_eq_ok_iff_forall₂ _ _ _).mp h).length_eq
  rw [List.isEmpty_iff_length_eq_zero, ← hlength, List.length_eq_zero_iff]

theorem Rule.makes_iff (field : String) (value result : Json) (rule : Rule) :
    rule.Makes value result ↔ rule.value field value = .ok (some result) := by
  constructor
  · intro h
    cases h with
    | copy => rw [Rule.value]
    | moveTo => rw [Rule.value]
    | coerce h => rw [Rule.value, h]
    | each hlist hitems hmapped =>
      subst hlist
      rw [Rule.value_each_arr, map_eq_ok_iff]
      refine ⟨_, hmapped, if_neg fun hempty => hitems ?_⟩
      exact (Ruleset.isEmpty_applyEach hmapped).mp hempty
  · intro h
    cases rule with
    | drop => simp [Rule.value] at h
    | copy =>
      obtain rfl : value = result := by simpa [Rule.value] using h
      exact .copy
    | moveTo slot =>
      obtain rfl : value = result := by simpa [Rule.value] using h
      exact .moveTo
    | coerce slot coercion => exact .coerce (by simpa [Rule.value] using h)
    | each defaults rules =>
      cases value with
      | arr items =>
        rw [Rule.value_each_arr, map_eq_ok_iff] at h
        obtain ⟨mapped, hmapped, hresult⟩ := h
        split at hresult
        · cases hresult
        · next hempty =>
          obtain rfl := Option.some.inj hresult
          exact .each rfl (fun hitems => hempty ((Ruleset.isEmpty_applyEach hmapped).mpr hitems))
            hmapped
      | _ => simp [Rule.value] at h

/-! ## Rulesets -/

lemma Ruleset.fate_eq_ok_iff (rules : Ruleset) (field : String) (value : Json) :
    (∃ fate, Ruleset.fate field value rules = .ok fate) ↔
      ∀ rule, Entries.get? rules field = some rule → ∃ made, rule.value field value = .ok made := by
  rw [Ruleset.fate_eq]
  cases Entries.get? rules field with
  | none => simp
  | some rule => simp

section Rulesets

variable {rules : Ruleset}

abbrev Ruleset.decide (rules : Ruleset) (field : String) (value : Json) :
    Except ShapeMismatch Fate :=
  Ruleset.fate field value rules

lemma written?_decide (entry : String × Json) (slot : Slot) (result : Json) :
    written? rules.decide entry = some (slot, result) ↔
      ∃ rule, Entries.get? rules entry.1 = some rule ∧ rule.slot? entry.1 = some slot ∧
        rule.Makes entry.2 result := by
  rw [written?, Ruleset.decide, Ruleset.fate_eq]
  cases hrule : Entries.get? rules entry.1 with
  | none => simp
  | some rule =>
    simp only [Option.some.injEq, exists_eq_left', rule.makes_iff entry.1]
    cases rule.value entry.1 entry.2 with
    | error cause => simp [Except.map]
    | ok made => cases rule.slot? entry.1 <;> cases made <;> simp [Except.map, Fate.of]

lemma isUnruled_decide (entry : String × Json) :
    isUnruled rules.decide entry = (Entries.get? rules entry.1).isNone := by
  rw [isUnruled, Ruleset.decide, Ruleset.fate_eq]
  cases hrule : Entries.get? rules entry.1 with
  | none => rfl
  | some rule =>
    simp only [Option.isNone_some]
    cases rule.value entry.1 entry.2 with
    | error cause => rfl
    | ok made => cases rule.slot? entry.1 <;> cases made <;> rfl

/-- **What is written are the contributions.** -/
theorem mem_written {source : Record} (hsource : Entries.Distinct source) (slot : Slot)
    (result : Json) :
    (slot, result) ∈ written rules.decide source ↔
      ∃ field, Contributes rules source field slot result := by
  simp only [written, List.mem_filterMap, written?_decide, Contributes]
  constructor
  · rintro ⟨⟨field, value⟩, hentry, rule, hrule, hslot, hmakes⟩
    exact ⟨field, rule, value, hrule, (Entries.get?_eq_some_iff hsource _ _).mpr hentry, hslot,
      hmakes⟩
  · rintro ⟨field, rule, value, hrule, hvalue, hslot, hmakes⟩
    exact ⟨(field, value), Entries.mem_of_get? hvalue, rule, hrule, hslot, hmakes⟩

lemma get?_unruled (source : Record) (key : String) :
    Entries.get? (unruled rules.decide source) key
      = if Entries.get? rules key = none then Entries.get? source key else none := by
  have hfilter : unruled rules.decide source
      = source.filter fun entry => (Entries.get? rules entry.1).isNone := by
    rw [unruled]
    exact List.filter_congr fun entry _ => isUnruled_decide entry
  rw [hfilter, Entries.get?_filter (fun field => (Entries.get? rules field).isNone)]
  simp only [Option.isNone_iff_eq_none]

/-- **Contributions never clash.**  Different fields have different rules, and no two rules
contend. -/
theorem unclashing_written {source : Record} (hsource : Entries.Distinct source)
    (hrules : Uncontested rules) : Unclashing (written rules.decide source) := by
  have hfields := (Entries.distinct_iff_pairwise source).mp hsource
  refine List.Pairwise.filterMap _ (fun a b hne x hx y hy hclash => hne ?_) hfields
  obtain ⟨ruleA, hruleA, hslotA, -⟩ := (written?_decide a x.1 x.2).mp hx
  obtain ⟨ruleB, hruleB, hslotB, -⟩ := (written?_decide b y.1 y.2).mp hy
  have hsame := hrules.eq_of_contend (Entries.mem_of_get? hruleA) (Entries.mem_of_get? hruleB)
    ⟨x.1, y.1, hslotA, hslotB, hclash⟩
  exact (Prod.mk.inj hsame).1

/-- **What a payload must hold**, read off the rules and the source. -/
structure Renders (rules : Ruleset) (leftovers : Leftovers) (source output : Record) : Prop where
  /-- No key stands twice. -/
  distinct : Entries.Distinct output
  /-- A contribution to a top-level key stands there. -/
  top : ∀ {field name result}, Contributes rules source field (.top name) result →
    Entries.get? output name = some result
  /-- Contributions inside an object stand in one that holds them and nothing else. -/
  within : ∀ {field outer inner result}, Contributes rules source field (.within outer inner) result →
    ∃ members, Entries.get? output outer = some (.obj members) ∧ Entries.Distinct members ∧
      ∀ key value, Entries.get? members key = some value ↔
        ∃ other, Contributes rules source other (.within outer key) value
  /-- Any other top-level key is there exactly if leftovers are passed on, and then it is that of a
  field without a rule, with the value of the source. -/
  rest : ∀ {key}, (∀ field slot result, Contributes rules source field slot result →
      slot.root ≠ key) →
    Entries.get? output key
      = if leftovers = .pass ∧ Entries.get? rules key = none then Entries.get? source key else none

lemma distinct_compose {fate : String → Json → Except ShapeMismatch Fate} (leftovers : Leftovers)
    (source : Record) : Entries.Distinct (compose fate leftovers source) := by
  have hwritten := distinct_writeAll Entries.distinct_nil (written fate source)
  cases leftovers with
  | drop => exact hwritten
  | pass => exact Entries.distinct_addMissing hwritten _

lemma get?_compose_of_written {fate : String → Json → Except ShapeMismatch Fate}
    (leftovers : Leftovers) {source : Record} {key : String} {value : Json}
    (h : Entries.get? (writeAll (written fate source) []) key = some value) :
    Entries.get? (compose fate leftovers source) key = some value := by
  cases leftovers with
  | drop => exact h
  | pass => rw [compose, Entries.get?_addMissing, h, Option.some_or]

lemma get?_compose_of_unwritten {fate : String → Json → Except ShapeMismatch Fate}
    (leftovers : Leftovers) {source : Record} {key : String}
    (h : Entries.get? (writeAll (written fate source) []) key = none) :
    Entries.get? (compose fate leftovers source) key
      = if leftovers = .pass then Entries.get? (unruled fate source) key else none := by
  cases leftovers with
  | drop => exact h
  | pass => rw [compose, Entries.get?_addMissing, h, Option.none_or, if_pos rfl]

/-- **A ruleset without contention renders its sources.** -/
theorem apply_renders {leftovers : Leftovers} {source output : Record}
    (hsource : Entries.Distinct source) (hrules : Uncontested rules)
    (happly : rules.apply leftovers source = .ok output) :
    Renders rules leftovers source output := by
  obtain ⟨-, rfl⟩ := (assemble_eq_ok_iff leftovers source output).mp happly
  have hun := unclashing_written hsource hrules
  refine ⟨distinct_compose leftovers source, ?_, ?_, ?_⟩
  · intro field name result hc
    have hwrite := (mem_written hsource _ _).mpr ⟨field, hc⟩
    exact get?_compose_of_written leftovers (get?_writeAll_top hun hwrite)
  · intro field outer inner result hc
    have hwrite := (mem_written hsource _ _).mpr ⟨field, hc⟩
    refine ⟨_, get?_compose_of_written leftovers (get?_writeAll_within hun hwrite),
      Entries.distinct_overlay Entries.distinct_nil _, fun key value => ?_⟩
    rw [get?_ofWrites_inside hun, mem_written hsource]
  · intro key hroot
    have hnone : Entries.get? (writeAll (written rules.decide source) []) key = none := by
      refine get?_writeAll_eq_none fun w hw => ?_
      obtain ⟨field, hc⟩ := (mem_written hsource w.1 w.2).mp hw
      exact hroot field w.1 w.2 hc
    rw [get?_compose_of_unwritten leftovers hnone, get?_unruled, ite_and]

end Rulesets

/-! ## Mappings -/

lemma Mapping.run_eq_ok_iff (mapping : Mapping) (source output : Record) :
    mapping.run source = .ok output ↔
      ∃ rendered, Ruleset.apply mapping.rules mapping.leftovers source = .ok rendered ∧
        Finisher.runAll mapping.finishers rendered = output :=
  map_eq_ok_iff _ _ _

/-- **Every payload is exact.**  What a mapping without finishing steps makes of a source holds the
contributions of its fields at their slots, the leftovers where these are passed on and no
contribution lies, and nothing else, at the top and inside the objects that contributions make. -/
theorem run_renders (mapping : Mapping) (hplain : mapping.finishers = []) {source output : Record}
    (hsource : Entries.Distinct source) (hrun : mapping.run source = .ok output) :
    Renders mapping.rules mapping.leftovers source output := by
  rw [Mapping.run_eq_ok_iff, hplain] at hrun
  obtain ⟨rendered, happly, rfl⟩ := hrun
  exact apply_renders hsource mapping.lawful.uncontested happly

/-- A digit as a JSON number. -/
def digit (d : Fin 10) : Json :=
  .num (.integer ⟨d.val, Int.le_trans (by decide) (Int.natCast_nonneg d.val),
    Int.lt_trans (Int.ofNat_lt.mpr d.isLt) (by decide)⟩)

/-- The purchase mapping without its finishing step. -/
def plainPurchase : Mapping :=
  { Friendbuy.purchaseMapping with finishers := [], sound := Friendbuy.purchaseMapping.sound }

/-- An order whose `customer` makes way for the object that the buyer's fields go to. -/
def guestOrder : Record :=
  [("region", .str "EU"), ("orderId", digit 7),
    ("email", .str "a@b.c"), ("age", .str "unknown"), ("customer", .str "guest"),
    ("products", .arr [.obj [("sku", .str "A1"), ("color", .str "red")], .obj []])]

def guestPayload : Record :=
  [("id", .str "7"), ("customer", .obj [("email", .str "a@b.c")]),
    ("products", .arr [
      .obj [("sku", .str "A1"), ("name", .str "unknown"),
        ("quantity", digit 1)],
      .obj [("sku", .str "unknown"), ("name", .str "unknown"),
        ("quantity", digit 1)]]),
    ("region", .str "EU")]

theorem guestOrder_rendered :
    plainPurchase.finishers = [] ∧ Entries.Distinct guestOrder ∧
      plainPurchase.run guestOrder = .ok guestPayload ∧
      Renders plainPurchase.rules plainPurchase.leftovers guestOrder guestPayload :=
  ⟨rfl, by decide, rfl, run_renders plainPurchase rfl (by decide) rfl⟩

end EventPayload
