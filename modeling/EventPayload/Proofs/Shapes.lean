import EventPayload.Friendbuy.Purchase
import EventPayload.Proofs.Payload

/-!
# The check of lists guards the mapping

Before an action maps its record it checks that every field mapped as a list of objects is one.
The mapping makes the same demand again, field by field and element by element, and has nothing to
answer when it is not met.  This file shows that the two agree.

* `Rule.value_of_flat` — only a rule for lists can fail.
* `Rule.value_each_iff` — a rule for lists whose own rules are flat fails exactly on what is not a
  list of objects.  **This is where the laws of a draft enter**: the check looks one level deep, the
  mapping goes down through the rules of the elements.
* `Mapping.fate_iff_refuses` — hence a field fails exactly if the check refuses it.
* `Mapping.BreaksAt` — the first field of a source at which the mapping fails.
* `checkLists_guards_run` — the check passes exactly the records that can be mapped, names the field
  at which the mapping of the others fails, and keeps every action from mapping them.
-/

namespace EventPayload

/-! ## Where a rule fails -/

lemma Rule.value_of_flat {rule : Rule} (h : rule.isEach = false) (field : String)
    (value : Json) : ∃ made, rule.value field value = .ok made := by
  cases rule with
  | drop => exact ⟨none, by rw [Rule.value]⟩
  | copy => exact ⟨some value, by rw [Rule.value]⟩
  | moveTo slot => exact ⟨some value, by rw [Rule.value]⟩
  | coerce slot coercion => exact ⟨coercion.apply value, by rw [Rule.value]⟩
  | each defaults rules => simp [Rule.isEach] at h

lemma Ruleset.apply_of_flat {rules : Ruleset}
    (h : ∀ entry ∈ rules, entry.2.isEach = false) (leftovers : Leftovers) (source : Record) :
    ∃ output, rules.apply leftovers source = .ok output := by
  refine ⟨_, (assemble_eq_ok_iff leftovers source _).mpr ⟨fun entry _ => ?_, rfl⟩⟩
  refine (Ruleset.fate_eq_ok_iff rules entry.1 entry.2).mpr fun rule hrule => ?_
  exact Rule.value_of_flat (h _ (Entries.mem_of_get? hrule)) entry.1 entry.2

lemma Ruleset.applyEach_eq_ok_iff {rules : Ruleset}
    (h : ∀ entry ∈ rules, entry.2.isEach = false) (defaults : Record) (items : List Json) :
    (∃ mapped, rules.applyEach defaults items = .ok mapped) ↔ items.all Json.isObject = true := by
  rw [Ruleset.applyEach, overlaidEach, mapM_eq_ok_iff, List.all_eq_true]
  refine forall₂_congr fun item _ => ?_
  cases item with
  | obj members =>
    obtain ⟨output, houtput⟩ := Ruleset.apply_of_flat h .drop (Entries.overlay defaults members)
    simp [houtput, Except.map, Json.isObject]
  | _ => simp [Json.isObject]

/-- **A rule for lists fails exactly on what is not a list of objects.** -/
theorem Rule.value_each_iff {rules : Ruleset} (h : ElementsLawful rules) (defaults : Record)
    (field : String) (value : Json) :
    (∃ made, (Rule.each defaults rules).value field value = .ok made) ↔ value.isObjectList = true := by
  cases value with
  | arr items =>
    rw [Rule.value_each_arr, Json.isObjectList, ← Ruleset.applyEach_eq_ok_iff h.flat defaults items]
    simp
  | _ => simp [Rule.value, Json.isObjectList]

/-! ## Where a mapping fails -/

namespace Mapping

variable (mapping : Mapping)

/-- **A field fails exactly if the check refuses it.** -/
theorem fate_iff_refuses (entry : String × Json) :
    (∃ fate, Ruleset.fate entry.1 entry.2 mapping.rules = .ok fate) ↔
      mapping.refuses entry = false := by
  rw [Ruleset.fate_eq_ok_iff, refuses]
  cases hrule : Entries.get? mapping.rules entry.1 with
  | none => simp
  | some rule =>
    simp only [Option.some.injEq, forall_eq', Option.any_some]
    by_cases heach : rule.isEach = true
    · cases rule with
      | each defaults inner =>
        have hinner := mapping.lawful.elements _ _ _ (Entries.mem_of_get? hrule)
        simp [Rule.value_each_iff hinner, Rule.isEach]
      | _ => simp [Rule.isEach] at heach
    · rw [Bool.not_eq_true] at heach
      simp [Rule.value_of_flat heach, heach]

/-- **The first field at which a mapping fails.**  Every field before it has a fate. -/
def BreaksAt (source : Record) (key : String) (cause : ShapeMismatch) : Prop :=
  ∃ before value after, source = before ++ (key, value) :: after ∧
    (∀ entry ∈ before, ∃ fate, Ruleset.fate entry.1 entry.2 mapping.rules = .ok fate) ∧
    Ruleset.fate key value mapping.rules = .error cause

theorem run_eq_error_iff (source : Record) (cause : ShapeMismatch) :
    mapping.run source = .error cause ↔ ∃ key, mapping.BreaksAt source key cause := by
  rw [run, map_eq_error_iff, Ruleset.apply, assemble_eq_error_iff]
  constructor
  · rintro ⟨before, ⟨key, value⟩, after, hsplit, hbefore, hcause⟩
    exact ⟨key, before, value, after, hsplit, hbefore, hcause⟩
  · rintro ⟨key, before, value, after, hsplit, hbefore, hcause⟩
    exact ⟨before, (key, value), after, hsplit, hbefore, hcause⟩

theorem misshapen?_eq_none_iff (source : Record) :
    mapping.misshapen? source = none ↔ ∃ output, mapping.run source = .ok output := by
  simp only [run_eq_ok_iff, Ruleset.apply, assemble_eq_ok_iff]
  rw [misshapen?, Option.map_eq_none_iff, List.find?_eq_none]
  constructor
  · intro h
    refine ⟨_, _, ⟨fun entry hentry => ?_, rfl⟩, rfl⟩
    exact (mapping.fate_iff_refuses entry).mpr ((Bool.not_eq_true _).mp (h entry hentry))
  · rintro ⟨-, -, ⟨hfates, -⟩, -⟩ entry hentry
    rw [(mapping.fate_iff_refuses entry).mp (hfates entry hentry)]
    exact Bool.false_ne_true

theorem misshapen?_eq_some_iff (source : Record) (key : String) :
    mapping.misshapen? source = some key ↔ ∃ cause, mapping.BreaksAt source key cause := by
  have herror : ∀ value, mapping.refuses (key, value) = true ↔
      ∃ cause, Ruleset.fate key value mapping.rules = .error cause := by
    intro value
    rw [← Bool.not_eq_false, ← fate_iff_refuses]
    cases Ruleset.fate key value mapping.rules <;> simp
  simp only [misshapen?, Option.map_eq_some_iff, List.find?_eq_some_iff_append, BreaksAt,
    fate_iff_refuses, Bool.not_eq_true']
  constructor
  · rintro ⟨⟨_, value⟩, ⟨hrefuses, before, after, hsplit, hbefore⟩, rfl⟩
    obtain ⟨cause, hcause⟩ := (herror value).mp hrefuses
    exact ⟨cause, before, value, after, hsplit, hbefore, hcause⟩
  · rintro ⟨cause, before, value, after, hsplit, hbefore, hcause⟩
    exact ⟨(key, value), ⟨(herror value).mpr ⟨cause, hcause⟩, before, after, hsplit, hbefore⟩, rfl⟩

lemma checkLists_eq_ok_iff (source : Record) :
    mapping.checkLists source = .ok () ↔ mapping.misshapen? source = none := by
  rw [checkLists]
  cases mapping.misshapen? source <;> simp

lemma checkLists_eq_error_iff (source : Record) (key : String) :
    mapping.checkLists source = .error (.invalidField key) ↔ mapping.misshapen? source = some key := by
  rw [checkLists]
  cases mapping.misshapen? source <;> simp

lemma checkLists_ne_misshapen (source : Record) (cause : ShapeMismatch) :
    mapping.checkLists source ≠ .error (.misshapen cause) := by
  rw [checkLists]
  cases mapping.misshapen? source <;> simp

end Mapping

/-! ## Actions -/

namespace Action

variable (action : Action)

lemma perform_of_isObject {event : Json} (h : event.isObject = true) :
    action.perform event =
      (action.payload event).bind fun payload =>
        (action.eventName payload).bind fun name =>
          (action.mapping.checkLists (action.prepare payload)).bind fun _ =>
            (action.mapped (action.prepare payload)).map fun data => ⟨name, data⟩ := by
  simp only [perform, h, Bool.not_true, Bool.false_eq_true, if_false]
  rfl

lemma perform_of_not_isObject {event : Json} (h : event.isObject = false) :
    action.perform event = .error .notObject := by
  simp [perform, h, Except.bind]

lemma perform_eq_error {event : Json} {failure : Failure}
    (h : action.perform event = .error failure) :
    failure = .notObject ∨ action.payload event = .error failure ∨
      ∃ payload, action.eventName payload = .error failure ∨
        action.mapping.checkLists (action.prepare payload) = .error failure ∨
        action.mapping.checkLists (action.prepare payload) = .ok () ∧
          action.mapped (action.prepare payload) = .error failure := by
  cases hobject : event.isObject with
  | false =>
    rw [action.perform_of_not_isObject hobject] at h
    exact Or.inl (Except.error.inj h).symm
  | true =>
    rw [action.perform_of_isObject hobject, bind_eq_error_iff] at h
    rcases h with h | ⟨payload, -, h⟩
    · exact Or.inr (Or.inl h)
    refine Or.inr (Or.inr ⟨payload, ?_⟩)
    rw [bind_eq_error_iff] at h
    rcases h with h | ⟨name, -, h⟩
    · exact Or.inl h
    rw [bind_eq_error_iff] at h
    rcases h with h | ⟨_, hcheck, h⟩
    · exact Or.inr (Or.inl h)
    · rw [map_eq_error_iff] at h
      exact Or.inr (Or.inr ⟨hcheck, h⟩)

lemma payload_ne_misshapen (event : Json) (cause : ShapeMismatch) :
    action.payload event ≠ .error (.misshapen cause) := by
  simp [payload]

lemma mapped_of_checkLists {source : Record} (h : action.mapping.checkLists source = .ok ()) :
    ∃ data, action.mapped source = .ok data := by
  rw [Mapping.checkLists_eq_ok_iff, Mapping.misshapen?_eq_none_iff] at h
  obtain ⟨data, hdata⟩ := h
  exact ⟨data, (mapError_eq_ok_iff _ _ _).mpr hdata⟩

/-- **No action maps a misshapen record.** -/
theorem perform_ne_misshapen
    (hname : ∀ payload cause, action.eventName payload ≠ .error (.misshapen cause)) (event : Json)
    (cause : ShapeMismatch) : action.perform event ≠ .error (.misshapen cause) := by
  intro h
  rcases action.perform_eq_error h with h | h | ⟨payload, h | h | ⟨hcheck, h⟩⟩
  · cases h
  · exact action.payload_ne_misshapen event cause h
  · exact hname payload cause h
  · exact action.mapping.checkLists_ne_misshapen _ cause h
  · obtain ⟨data, hdata⟩ := action.mapped_of_checkLists hcheck
    rw [hdata] at h
    cases h

end Action

/-- **The check of lists guards the mapping.**  It passes exactly the records that can be mapped,
and names the field at which the mapping of any other one fails first.  An action that names its
calls without mapping anything therefore never maps a misshapen record. -/
theorem checkLists_guards_run :
    (∀ (mapping : Mapping) (source : Record),
      (mapping.checkLists source = .ok () ↔ ∃ output, mapping.run source = .ok output) ∧
      ∀ key, mapping.checkLists source = .error (.invalidField key) ↔
        ∃ cause, mapping.BreaksAt source key cause ∧ mapping.run source = .error cause) ∧
    ∀ action : Action, (∀ payload cause, action.eventName payload ≠ .error (.misshapen cause)) →
      ∀ event cause, action.perform event ≠ .error (.misshapen cause) := by
  refine ⟨fun mapping source => ⟨?_, fun key => ?_⟩, fun action hname => ?_⟩
  · rw [mapping.checkLists_eq_ok_iff, mapping.misshapen?_eq_none_iff]
  · rw [mapping.checkLists_eq_error_iff, mapping.misshapen?_eq_some_iff]
    refine exists_congr fun cause => ⟨fun h => ⟨h, ?_⟩, And.left⟩
    exact (mapping.run_eq_error_iff source cause).mpr ⟨key, h⟩
  · exact action.perform_ne_misshapen hname

/-- An order with a text among its products. -/
def mistypedOrder : Record :=
  [("orderId", .str "A1"), ("products", .arr [.obj [("sku", .str "S1")], .str "S2"]),
    ("coupon", .str "SPRING")]

theorem mistypedOrder_guarded :
    Friendbuy.purchaseMapping.checkLists mistypedOrder = .error (.invalidField "products") ∧
      (∃ cause, Friendbuy.purchaseMapping.BreaksAt mistypedOrder "products" cause ∧
        Friendbuy.purchaseMapping.run mistypedOrder = .error cause) ∧
      Friendbuy.trackPurchase.perform (.obj [("properties", .obj mistypedOrder)])
        ≠ .error (.misshapen (.notObject .string)) :=
  ⟨rfl, ((checkLists_guards_run.1 Friendbuy.purchaseMapping mistypedOrder).2 "products").mp rfl,
    checkLists_guards_run.2 Friendbuy.trackPurchase (fun _ _ => nofun) _ _⟩

end EventPayload
