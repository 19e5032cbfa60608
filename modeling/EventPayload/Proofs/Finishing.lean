import EventPayload.Mapping.Finisher
import Mathlib.Tactic.Common

/-!
# What finishing steps leave

* `Finisher.Meets` — **meeting a requirement**: an object has a value under the key that is asked
  for; other kinds of value are not asked.
* `Finisher.get?_require` — what can be read after a requirement was enforced: all that could be
  read before, but for an object that does not meet it.
* `Finisher.removes`, `Finisher.runAll_require_eq_filter` — **requirements in turn** remove what any
  one of them would remove from the record as it first stood, and leave the rest in its order.
* `Finisher.Breaks`, `Finisher.requireAll_exact` — so a list of requirements is **enforced all at
  once**: its order and repetitions have no say, and nothing that is left breaks any of them.
-/

namespace EventPayload

lemma Json.isNull_eq_true_iff (value : Json) : value.isNull = true ↔ value = .null := by
  cases value <;> simp [isNull]

namespace Finisher

/-- **Meeting a requirement.** -/
def Meets (key : String) (value : Json) : Prop :=
  ∀ members, value = .obj members → ∃ found, Entries.get? members key = some found ∧ found ≠ .null

/-- What lacks a key is there and does not meet the requirement. -/
theorem lacks_eq_true_iff (record : Record) (object key : String) :
    lacks record object key = true ↔
      ∃ value, Entries.get? record object = some value ∧ ¬ Meets key value := by
  rw [lacks]
  cases hread : Entries.get? record object with
  | none => simp
  | some value =>
    simp only [Option.some.injEq, exists_eq_left']
    cases value with
    | obj members =>
      cases hkey : Entries.get? members key with
      | none => simp [Meets, hkey]
      | some found => simp [Meets, hkey, Json.isNull_eq_true_iff]
    | _ => simp [Meets]

/-- **Reading after a requirement.**  Only an object that does not meet it is gone. -/
theorem get?_require (record : Record) (object key place : String) (value : Json) :
    Entries.get? (run record (.require object key)) place = some value ↔
      Entries.get? record place = some value ∧ (place = object → Meets key value) := by
  rw [run]
  by_cases hlacks : lacks record object key = true
  · obtain ⟨found, hfound, hmeets⟩ := (lacks_eq_true_iff record object key).mp hlacks
    rw [if_pos hlacks, Entries.get?_erase]
    by_cases hplace : object = place
    · subst hplace
      simp only [if_true, reduceCtorEq, false_iff, not_and, hfound, Option.some.injEq]
      rintro rfl
      simpa using hmeets
    · simp [hplace, Ne.symm hplace]
  · rw [if_neg hlacks]
    refine ⟨fun hread => ⟨hread, ?_⟩, And.left⟩
    rintro rfl
    by_contra hmeets
    exact hlacks ((lacks_eq_true_iff record place key).mpr ⟨value, hread, hmeets⟩)

/-! ## Requirements in turn -/

/-- **What a requirement removes** from a record: the key of an object that lacks what is asked for.
The other steps ask for nothing. -/
def removes (record : Record) (place : String) : Finisher → Bool
  | require object key => object = place && lacks record object key
  | assign _ _ | custom _ => false

lemma run_require_eq_filter (record : Record) (object key : String) :
    run record (.require object key)
      = record.filter fun entry => !(require object key).removes record entry.1 := by
  rw [run]
  by_cases hlacks : lacks record object key = true
  · rw [if_pos hlacks, Entries.erase_eq_filter]
    refine List.filter_congr fun entry _ => ?_
    simp [removes, hlacks, eq_comm]
  · rw [if_neg hlacks, eq_comm, List.filter_eq_self]
    intro entry _
    simp [removes, hlacks]

/-- What a requirement would remove of the entries that are left does not depend on those that are
gone. -/
lemma removes_filter (record : Record) (keep : String → Bool) {place : String}
    (hkeep : keep place = true) (step : Finisher) :
    step.removes (record.filter fun entry => keep entry.1) place = step.removes record place := by
  cases step with
  | require object key =>
    by_cases hobject : object = place
    · subst hobject
      simp only [removes, lacks, Entries.get?_filter, hkeep, if_true]
    · simp [removes, hobject]
  | assign key value => rfl
  | custom finish => rfl

/-- **Requirements in turn.**  No removal makes a difference to a later requirement. -/
theorem runAll_require_eq_filter {steps : List Finisher}
    (hsteps : ∀ step ∈ steps, ∃ object key, step = .require object key) (record : Record) :
    runAll steps record
      = record.filter fun entry => !steps.any fun step => step.removes record entry.1 := by
  induction steps generalizing record with
  | nil => exact (List.filter_eq_self.mpr fun entry _ => rfl).symm
  | cons step rest ih =>
    rw [List.forall_mem_cons] at hsteps
    obtain ⟨⟨object, key, rfl⟩, hrest⟩ := hsteps
    have hrun := ih hrest (run record (.require object key))
    rw [run_require_eq_filter, List.filter_filter] at hrun
    rw [runAll, List.foldl_cons, run_require_eq_filter]
    refine hrun.trans (List.filter_congr fun entry _ => ?_)
    rw [List.any_cons, Bool.not_or, Bool.and_comm]
    -- where the first step keeps the entry, the others judge it as they would at the start
    cases hfirst : (require object key).removes record entry.1 with
    | true => rfl
    | false =>
      have hlater : ∀ step : Finisher, step.removes _ entry.1 = step.removes record entry.1 :=
        fun step => removes_filter record
          (fun place => !(require object key).removes record place) (by simp [hfirst]) step
      simp only [hlater]

/-! ## Lists of requirements -/

/-- **Enforcing a list of requirements** in turn, each for an object and a key in it. -/
def requireAll (required : List (String × String)) (record : Record) : Record :=
  runAll (required.map fun r => require r.1 r.2) record

/-- **Breaking a requirement**: there is an object, and it has nothing, or null, under the key. -/
def Breaks (record : Record) (object key : String) : Prop :=
  ∃ members, Entries.get? record object = some (.obj members) ∧
    ∀ found, Entries.get? members key = some found → found = .null

theorem lacks_iff_breaks (record : Record) (object key : String) :
    lacks record object key = true ↔ Breaks record object key := by
  rw [lacks_eq_true_iff]
  constructor
  · rintro ⟨value, hread, hmeets⟩
    simp only [Meets, not_forall, not_exists, not_and, not_not] at hmeets
    obtain ⟨members, rfl, hnull⟩ := hmeets
    exact ⟨members, hread, hnull⟩
  · rintro ⟨members, hread, hnull⟩
    refine ⟨_, hread, fun hmeets => ?_⟩
    obtain ⟨found, hfound, hne⟩ := hmeets members rfl
    exact hne (hnull found hfound)

instance (record : Record) (object key : String) : Decidable (Breaks record object key) :=
  decidable_of_iff _ (lacks_iff_breaks record object key)

/-- A key may stay if the record breaks no requirement on it. -/
def MayStay (required : List (String × String)) (record : Record) (place : String) : Prop :=
  ∀ r ∈ required, r.1 = place → ¬ Breaks record r.1 r.2

instance (required : List (String × String)) (record : Record) :
    DecidablePred (MayStay required record) :=
  fun place => inferInstanceAs (Decidable (∀ r ∈ required, r.1 = place → ¬ Breaks record r.1 r.2))

lemma requireAll_eq_filter (required : List (String × String)) (record : Record) :
    requireAll required record = record.filter fun entry => MayStay required record entry.1 := by
  have hsteps : ∀ step ∈ required.map fun r => require r.1 r.2,
      ∃ object key, step = require object key := by
    intro step hstep
    obtain ⟨r, -, rfl⟩ := List.mem_map.mp hstep
    exact ⟨r.1, r.2, rfl⟩
  rw [requireAll, runAll_require_eq_filter hsteps]
  refine List.filter_congr fun entry _ => ?_
  rw [Bool.eq_iff_iff, Bool.not_eq_true', List.any_eq_false, decide_eq_true_iff, MayStay,
    List.forall_mem_map]
  refine forall₂_congr fun r _ => ?_
  rw [removes, Bool.and_eq_true, decide_eq_true_iff, lacks_iff_breaks, not_and]

/-- What is left breaks no requirement. -/
lemma not_breaks_requireAll {required : List (String × String)} {r : String × String}
    (hr : r ∈ required) (record : Record) : ¬ Breaks (requireAll required record) r.1 r.2 := by
  rintro ⟨members, hread, hnull⟩
  rw [requireAll_eq_filter,
    Entries.get?_filter (fun place => decide (MayStay required record place))] at hread
  split at hread
  · next hstay => exact of_decide_eq_true hstay r hr rfl ⟨members, hread, hnull⟩
  · cases hread

/-- **Requirements are enforced all at once.**  What goes is what breaks one of them in the record as
it first stood.  So only which requirements there are matters, a second time changes nothing, and
what is left breaks none of them. -/
theorem requireAll_exact (required : List (String × String)) (record : Record) :
    requireAll required record = record.filter (fun entry => MayStay required record entry.1) ∧
      (∀ others, (∀ r, r ∈ others ↔ r ∈ required) →
        requireAll others record = requireAll required record) ∧
      requireAll required (requireAll required record) = requireAll required record ∧
      ∀ r ∈ required, ¬ Breaks (requireAll required record) r.1 r.2 := by
  refine ⟨requireAll_eq_filter required record, fun others hsame => ?_, ?_, fun r hr =>
    not_breaks_requireAll hr record⟩
  · rw [requireAll_eq_filter, requireAll_eq_filter]
    refine List.filter_congr fun entry _ => decide_eq_decide.mpr ?_
    simp only [MayStay, hsame]
  · rw [requireAll_eq_filter required (requireAll required record), List.filter_eq_self]
    intro entry _
    exact decide_eq_true fun r hr _ => not_breaks_requireAll hr record

/-- An order whose buyer has a mail address and no identifier, for a shop that is no object. -/
def unclaimedOrder : Record :=
  [("shop", .str "EU"), ("buyer", .obj [("id", .null), ("mail", .str "a@b.c")]), ("seat", .obj []),
    ("gift", .obj [("to", .str "Bo")])]

def orderRequirements : List (String × String) :=
  [("buyer", "mail"), ("buyer", "id"), ("gift", "to"), ("shop", "id"), ("seat", "row")]

theorem unclaimedOrder_required :
    (∀ r, r ∈ orderRequirements.reverse ++ orderRequirements ↔ r ∈ orderRequirements) ∧
      requireAll orderRequirements unclaimedOrder
        = [("shop", .str "EU"), ("gift", .obj [("to", .str "Bo")])] ∧
      requireAll (orderRequirements.reverse ++ orderRequirements) unclaimedOrder
        = requireAll orderRequirements unclaimedOrder := by
  have hsame : ∀ r, r ∈ orderRequirements.reverse ++ orderRequirements ↔ r ∈ orderRequirements := by
    simp
  exact ⟨hsame, rfl, (requireAll_exact orderRequirements unclaimedOrder).2.1 _ hsame⟩

end Finisher

end EventPayload
