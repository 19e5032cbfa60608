import EventPayload.Friendbuy.Purchase
import EventPayload.Proofs.KeyOrder
import EventPayload.Proofs.Kinds
import EventPayload.Proofs.Payload

/-!
# The order of keys does not matter

A payload is put together in the order of the source.  Nothing of that order is left in it but the
order of its keys.

* `Rule.KeepsAlike`, `Ruleset.KeepsAlike` — alike values are treated alike.
* `Contributes.alike`, `ServesAlike` — alike values have alike contributions, so alike sources serve
  every slot alike.
* `Renders.rel_get?` — a payload is determined at a key, up to the order of keys, by the contributions
  to the slots under it and by what is left over there.
* `Renders.alike` — hence **alike sources render alike payloads**.
* `Ruleset.apply_alike`, `Rule.each_keepsAlike` — hence rulesets treat alike sources alike, and so do
  rules for lists whose elements go through such rulesets.
* `run_alike` — so does a mapping, finishing steps included.
-/

namespace EventPayload

/-! ## Coercions -/

/-- Coercions make nothing of lists and objects, and alike values of other kinds are equal. -/
lemma Coercion.apply_eq_of_alike (coercion : Coercion) {value other : Json}
    (h : value.Alike other) : coercion.apply value = coercion.apply other := by
  obtain ⟨_, _, rfl, rfl, -⟩ | ⟨_, _, rfl, rfl, -⟩ | ⟨rfl, -⟩ := h.shapes
  · cases coercion <;> rfl
  · cases coercion <;> rfl
  · rfl

/-! ## Rules -/

/-- **Alike values are treated alike** by a rule. -/
def Rule.KeepsAlike (rule : Rule) : Prop :=
  ∀ field value other, value.Alike other →
    Agree (Option.Rel Json.Alike) (rule.value field value) (rule.value field other)

/-- Alike values are treated alike by every rule that can be found in a ruleset. -/
def Ruleset.KeepsAlike (rules : Ruleset) : Prop :=
  ∀ field rule, Entries.get? rules field = some rule → rule.KeepsAlike

theorem Rule.keepsAlike_of_flat {rule : Rule} (h : rule.isEach = false) : rule.KeepsAlike := by
  intro field value other halike
  cases rule with
  | drop =>
    rw [Rule.value, Rule.value]
    exact .done .none
  | copy =>
    rw [Rule.value, Rule.value]
    exact .done (.some halike)
  | moveTo slot =>
    rw [Rule.value, Rule.value]
    exact .done (.some halike)
  | coerce slot coercion =>
    rw [Rule.value, Rule.value, ← coercion.apply_eq_of_alike halike]
    cases hresult : coercion.apply value with
    | none => exact .done .none
    | some result => exact .done (.some ((Json.alike_self_iff _).mpr (Coercion.wellFormed_of_apply hresult)))
  | each defaults rules => simp [Rule.isEach] at h

/-! ## Records -/

section Records

variable {rules : Ruleset} {leftovers : Leftovers} {source other : Record}

/-- **Fields with alike values have alike contributions.** -/
theorem Contributes.alike (hrules : rules.KeepsAlike) {field : String}
    (h : Option.Rel Json.Alike (Entries.get? source field) (Entries.get? other field)) {slot : Slot}
    {result : Json} (hc : Contributes rules source field slot result) :
    ∃ result', Contributes rules other field slot result' ∧ result.Alike result' := by
  obtain ⟨rule, value, hrule, hvalue, hslot, hmakes⟩ := hc
  rw [hvalue, rel_some_iff] at h
  obtain ⟨value', hvalue', halike⟩ := h
  have hagree := hrules field rule hrule field value value' halike
  rw [(rule.makes_iff field value result).mp hmakes] at hagree
  obtain ⟨made, hmade, hrel⟩ := hagree.exists_ok
  obtain ⟨result', rfl, hresult⟩ := (rel_some_iff _ _).mp hrel
  exact ⟨result', ⟨rule, value', hrule, hvalue', hslot, (rule.makes_iff _ _ _).mpr hmade⟩, hresult⟩

/-- **A slot is served alike** by a second source: what the first contributes to it, the second does
as well, up to the order of keys. -/
def ServesAlike (rules : Ruleset) (source other : Record) (slot : Slot) : Prop :=
  ∀ field result, Contributes rules source field slot result →
    ∃ result', Contributes rules other field slot result' ∧ result.Alike result'

lemma servesAlike_of_alike (hrules : rules.KeepsAlike) (h : (Json.obj source).Alike (.obj other))
    (slot : Slot) : ServesAlike rules source other slot :=
  fun field _ hc => hc.alike hrules (h.get? field)

lemma Ruleset.apply_ok_of_alike (hrules : rules.KeepsAlike)
    (h : (Json.obj source).Alike (.obj other)) :
    (∃ output, rules.apply leftovers source = .ok output) →
      ∃ output, rules.apply leftovers other = .ok output := by
  simp only [Ruleset.apply, assemble_eq_ok_iff, exists_and_left, exists_eq', and_true]
  rintro hfates ⟨field, value'⟩ hentry
  obtain ⟨-, hother, -⟩ := (Json.alike_obj_iff _ _).mp h
  have hvalue' := (Entries.get?_eq_some_iff hother field value').mpr hentry
  obtain ⟨value, hvalue, halike⟩ := h.symm.exists_of_get? hvalue'
  have hfate := hfates _ (Entries.mem_of_get? hvalue)
  rw [Ruleset.fate_eq_ok_iff] at hfate ⊢
  intro rule hrule
  obtain ⟨made, hmade⟩ := hfate rule hrule
  exact (hrules field rule hrule field value value' halike.symm).ok_iff.mp ⟨made, hmade⟩

/-- Objects that hold the contributions inside them read alike where these are served alike. -/
lemma rel_get?_of_contributions {outer key : String} {members members' : Record}
    (hread : ∀ value, Entries.get? members key = some value ↔
      ∃ field, Contributes rules source field (.within outer key) value)
    (hread' : ∀ value, Entries.get? members' key = some value ↔
      ∃ field, Contributes rules other field (.within outer key) value)
    (hto : ServesAlike rules source other (.within outer key))
    (hfrom : ServesAlike rules other source (.within outer key)) :
    Option.Rel Json.Alike (Entries.get? members key) (Entries.get? members' key) := by
  cases hvalue : Entries.get? members key with
  | some value =>
    obtain ⟨field, hc⟩ := (hread value).mp hvalue
    obtain ⟨value', hc', halike⟩ := hto field value hc
    rw [(hread' value').mpr ⟨field, hc'⟩]
    exact .some halike
  | none =>
    cases hvalue' : Entries.get? members' key with
    | none => exact .none
    | some value' =>
      obtain ⟨field, hc'⟩ := (hread' value').mp hvalue'
      obtain ⟨value, hc, -⟩ := hfrom field value' hc'
      rw [(hread value).mpr ⟨field, hc⟩] at hvalue
      cases hvalue

/-- **Payloads read alike at a key** under which all slots are served alike, provided that the
sources read alike there if the key is that of a field without a rule. -/
theorem Renders.rel_get? {output output' : Record} (hr : Renders rules leftovers source output)
    (hr' : Renders rules leftovers other output') {key : String}
    (hto : ∀ slot, slot.root = key → ServesAlike rules source other slot)
    (hfrom : ∀ slot, slot.root = key → ServesAlike rules other source slot)
    (hrest : Entries.get? rules key = none →
      Option.Rel Json.Alike (Entries.get? source key) (Entries.get? other key)) :
    Option.Rel Json.Alike (Entries.get? output key) (Entries.get? output' key) := by
  -- either both payloads have a contribution under the key, or neither has one
  by_cases hroot : ∃ field slot result, Contributes rules source field slot result ∧ slot.root = key
  · obtain ⟨field, slot, result, hc, rfl⟩ := hroot
    obtain ⟨result', hc', halike⟩ := hto slot rfl field result hc
    cases slot with
    | top name =>
      rw [Slot.root, hr.top hc, hr'.top hc']
      exact .some halike
    | within outer inner =>
      obtain ⟨members, hobject, hdistinct, hread⟩ := hr.within hc
      obtain ⟨members', hobject', hdistinct', hread'⟩ := hr'.within hc'
      rw [Slot.root, hobject, hobject']
      refine .some ((Json.alike_obj_iff _ _).mpr ⟨hdistinct, hdistinct', fun place => ?_⟩)
      exact rel_get?_of_contributions (hread place) (hread' place) (hto _ rfl) (hfrom _ rfl)
  · have hnone : ∀ field slot result, Contributes rules source field slot result →
        slot.root ≠ key := fun field slot result hc hkey => hroot ⟨field, slot, result, hc, hkey⟩
    have hnone' : ∀ field slot result, Contributes rules other field slot result →
        slot.root ≠ key := by
      intro field slot result' hc' hkey
      obtain ⟨result, hc, -⟩ := hfrom slot hkey field result' hc'
      exact hnone field slot result hc hkey
    rw [hr.rest hnone, hr'.rest hnone']
    split
    · next hpassed => exact hrest hpassed.2
    · exact .none

/-- **Alike sources render alike payloads.** -/
theorem Renders.alike {output output' : Record} (hrules : rules.KeepsAlike)
    (h : (Json.obj source).Alike (.obj other)) (hr : Renders rules leftovers source output)
    (hr' : Renders rules leftovers other output') : (Json.obj output).Alike (.obj output') :=
  (Json.alike_obj_iff _ _).mpr ⟨hr.distinct, hr'.distinct, fun key =>
    hr.rel_get? hr' (fun slot _ => servesAlike_of_alike hrules h slot)
      (fun slot _ => servesAlike_of_alike hrules h.symm slot) fun _ => h.get? key⟩

/-- **Rulesets treat alike sources alike.** -/
theorem Ruleset.apply_alike (hun : Uncontested rules) (hrules : rules.KeepsAlike)
    (h : (Json.obj source).Alike (.obj other)) :
    Agree (fun output output' => (Json.obj output).Alike (.obj output'))
      (rules.apply leftovers source) (rules.apply leftovers other) := by
  obtain ⟨hsource, hother, -⟩ := (Json.alike_obj_iff _ _).mp h
  cases hrun : rules.apply leftovers source with
  | ok output =>
    obtain ⟨output', hrun'⟩ := Ruleset.apply_ok_of_alike hrules h ⟨output, hrun⟩
    rw [hrun']
    exact .done (Renders.alike hrules h (apply_renders hsource hun hrun)
      (apply_renders hother hun hrun'))
  | error cause =>
    cases hrun' : rules.apply leftovers other with
    | error cause' => exact .failed cause cause'
    | ok output' =>
      obtain ⟨output, hok⟩ := Ruleset.apply_ok_of_alike hrules h.symm ⟨output', hrun'⟩
      rw [hok] at hrun
      cases hrun

end Records

/-! ## Lists -/

section Lists

variable {rules : Ruleset} {defaults : Record}

/-- **The elements of alike lists are treated alike.** -/
theorem Ruleset.applyEach_alike (hlawful : ElementsLawful rules)
    (hdefaults : (Json.obj defaults).WellFormed) {items others : List Json}
    (h : List.Forall₂ Json.Alike items others) :
    Agree (List.Forall₂ Json.Alike) (rules.applyEach defaults items)
      (rules.applyEach defaults others) := by
  have hrules : rules.KeepsAlike := fun field rule hrule =>
    Rule.keepsAlike_of_flat (hlawful.flat _ (Entries.mem_of_get? hrule))
  refine Agree.mapM (h.imp fun item other halike => ?_)
  obtain ⟨_, _, rfl, rfl, -⟩ | ⟨members, others, rfl, rfl, hmembers⟩ | ⟨rfl, -, hne⟩ := halike.shapes
  · exact .failed _ _
  · have hmerged := Json.alike_overlay hdefaults hmembers
    exact (Ruleset.apply_alike hlawful.uncontested hrules hmerged).map fun _ _ hout => hout
  · cases item with
    | obj members => exact absurd rfl (hne members)
    | _ => exact .failed _ _

theorem Rule.each_keepsAlike (hlawful : ElementsLawful rules)
    (hdefaults : (Json.obj defaults).WellFormed) : (Rule.each defaults rules).KeepsAlike := by
  intro field value other halike
  obtain ⟨items, others, rfl, rfl, hitems⟩ | ⟨_, _, rfl, rfl, -⟩ | ⟨rfl, hne, -⟩ := halike.shapes
  · rw [Rule.value_each_arr, Rule.value_each_arr]
    refine (Ruleset.applyEach_alike hlawful hdefaults hitems).map fun mapped mapped' h => ?_
    cases h with
    | nil => exact .none
    | cons hitem hrest => exact .some ((Json.alike_arr_iff _ _).mpr (.cons hitem hrest))
  · simp only [Rule.value]
    exact .failed _ _
  · cases value with
    | arr items => exact absurd rfl (hne items)
    | null =>
      rw [Rule.value]
      exact .done .none
    | _ =>
      simp only [Rule.value]
      exact .failed _ _

end Lists

/-! ## Mappings -/

/-- The defaults of all lists are well formed. -/
def Mapping.DefaultsWellFormed (mapping : Mapping) : Prop :=
  ∀ field defaults inner, (field, Rule.each defaults inner) ∈ mapping.rules →
    (Json.obj defaults).WellFormed

lemma Mapping.defaultsWellFormed_of_flat {mapping : Mapping}
    (hflat : ∀ entry ∈ mapping.rules, entry.2.isEach = false) : mapping.DefaultsWellFormed := by
  intro field defaults inner hentry
  cases hflat _ hentry

lemma Mapping.rules_keepsAlike (mapping : Mapping) (hdefaults : mapping.DefaultsWellFormed) :
    Ruleset.KeepsAlike mapping.rules := by
  intro field rule hrule
  have hentry := Entries.mem_of_get? hrule
  cases rule with
  | each defaults inner =>
    exact Rule.each_keepsAlike (mapping.lawful.elements _ _ _ hentry) (hdefaults _ _ _ hentry)
  | _ => exact Rule.keepsAlike_of_flat rfl

lemma Finisher.lacks_eq_of_alike {record other : Record} (h : (Json.obj record).Alike (.obj other))
    (object key : String) : lacks record object key = lacks other object key := by
  have hobject := h.get? object
  rw [lacks, lacks]
  generalize Entries.get? record object = x, Entries.get? other object = y at hobject ⊢
  cases hobject with
  | none => rfl
  | @some value value' halike =>
    obtain ⟨_, _, rfl, rfl, -⟩ | ⟨members, others, rfl, rfl, hmembers⟩ | ⟨rfl, -⟩ := halike.shapes
    · rfl
    · have hkey := hmembers.get? key
      show (Entries.get? members key).all Json.isNull = (Entries.get? others key).all Json.isNull
      generalize Entries.get? members key = u, Entries.get? others key = v at hkey ⊢
      cases hkey with
      | none => rfl
      | some h => exact h.isNull_eq
    · rfl

lemma Finisher.runAll_require_alike {steps : List Finisher}
    (hsteps : ∀ step ∈ steps, ∃ object key, step = .require object key) {record other : Record}
    (h : (Json.obj record).Alike (.obj other)) :
    (Json.obj (runAll steps record)).Alike (.obj (runAll steps other)) := by
  induction steps generalizing record other with
  | nil => exact h
  | cons step rest ih =>
    rw [List.forall_mem_cons] at hsteps
    obtain ⟨⟨object, key, rfl⟩, hrest⟩ := hsteps
    refine ih hrest ?_
    rw [run, run, lacks_eq_of_alike h]
    split
    · exact Json.alike_erase h object
    · exact h

/-- **The order of keys does not matter.**  A mapping whose finishing steps only remove objects
either fails on both of two sources that are equal up to the order of keys, or makes payloads of
them that are. -/
theorem run_alike (mapping : Mapping) (hdefaults : mapping.DefaultsWellFormed)
    (hfinishers : ∀ step ∈ mapping.finishers, ∃ object key, step = .require object key)
    {source other : Record} (h : (Json.obj source).Alike (.obj other)) :
    Agree (fun output output' => (Json.obj output).Alike (.obj output'))
      (mapping.run source) (mapping.run other) :=
  (Ruleset.apply_alike mapping.lawful.uncontested (mapping.rules_keepsAlike hdefaults) h).map
    fun _ _ hout => Finisher.runAll_require_alike hfinishers hout

/-- An order with its buyer in front. -/
def buyerFirst : Record :=
  [("customerId", .str "7"), ("email", .str "a@b.c"),
    ("shop", .obj [("city", .str "Kyiv"), ("floor", .null)]),
    ("products", .arr [.obj [("sku", .str "A1"), ("price", .str "2")], .obj []])]

def buyerLast : Record :=
  [("products", .arr [.obj [("price", .str "2"), ("sku", .str "A1")], .obj []]),
    ("shop", .obj [("floor", .null), ("city", .str "Kyiv")]), ("email", .str "a@b.c"),
    ("customerId", .str "7")]

theorem buyer_reordered :
    Friendbuy.purchaseMapping.DefaultsWellFormed ∧
      (∀ step ∈ Friendbuy.purchaseMapping.finishers, ∃ object key, step = .require object key) ∧
      (Json.obj buyerFirst).Alike (.obj buyerLast) ∧
      Agree (fun output output' => (Json.obj output).Alike (.obj output'))
        (Friendbuy.purchaseMapping.run buyerFirst) (Friendbuy.purchaseMapping.run buyerLast) := by
  have hdefaults : Friendbuy.purchaseMapping.DefaultsWellFormed := by
    intro field defaults inner h
    simp only [Friendbuy.purchaseMapping, Friendbuy.customerRules, Friendbuy.keptFields,
      Friendbuy.Placement.keep, List.map_cons, List.map_nil, List.cons_append, List.nil_append,
      List.mem_cons, Prod.mk.injEq, Rule.each.injEq, reduceCtorEq, and_false, false_or, or_false,
      List.not_mem_nil] at h
    obtain ⟨-, rfl, -⟩ := h
    decide
  have hfinishers : ∀ step ∈ Friendbuy.purchaseMapping.finishers,
      ∃ object key, step = .require object key := by
    intro step hstep
    exact ⟨"customer", "id", List.mem_singleton.mp hstep⟩
  have halike : (Json.obj buyerFirst).Alike (.obj buyerLast) := by decide
  exact ⟨hdefaults, hfinishers, halike,
    run_alike Friendbuy.purchaseMapping hdefaults hfinishers halike⟩

end EventPayload
