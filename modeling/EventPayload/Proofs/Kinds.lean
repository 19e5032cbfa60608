import EventPayload.Coercion
import Mathlib.Tactic.Lemma

/-!
# What coercions make

A coercion yields values of one kind only, whatever it is given: texts, numbers, or dates.

* `Coercion.exists_num_of_toInteger`, `Coercion.exists_num_of_toNumber` — the numeric coercions make
  numbers.
* `Coercion.wellFormed_of_apply` — what a coercion makes repeats no key.
-/

namespace EventPayload.Coercion

lemma exists_num_of_toInteger {value result : Json} (h : toInteger value = some result) :
    ∃ n, result = .num n := by
  cases value with
  | num n =>
    cases n with
    | integer n => exact ⟨_, (Option.some.inj h).symm⟩
    | double x =>
      rw [toInteger] at h
      obtain ⟨n, -, rfl⟩ := Option.map_eq_some_iff.mp h
      exact ⟨n, rfl⟩
  | str s =>
    simp only [toInteger] at h
    split at h
    · exact ⟨_, (Option.some.inj h).symm⟩
    · obtain ⟨n, -, rfl⟩ := Option.map_eq_some_iff.mp h
      exact ⟨n, rfl⟩
  | _ => simp [toInteger] at h

lemma exists_num_of_toNumber {value result : Json} (h : toNumber value = some result) :
    ∃ n, result = .num n := by
  cases value with
  | num n => exact ⟨n, (Option.some.inj h).symm⟩
  | str s =>
    simp only [toNumber] at h
    split at h
    · exact ⟨_, (Option.some.inj h).symm⟩
    · obtain ⟨n, -, rfl⟩ := Option.map_eq_some_iff.mp h
      exact ⟨n, rfl⟩
  | _ => simp [toNumber] at h

lemma wellFormed_of_toDate {value result : Json} (h : toDate value = some result) :
    result.WellFormed := by
  cases value with
  | str s =>
    simp only [toDate] at h
    split at h
    · obtain ⟨year, -, h⟩ := Option.bind_eq_some_iff.mp h
      obtain ⟨month, -, h⟩ := Option.bind_eq_some_iff.mp h
      obtain ⟨day, -, h⟩ := Option.bind_eq_some_iff.mp h
      rw [← Option.some.inj h, Json.wellFormed_obj_iff]
      split <;> simp [Entries.Distinct, Entries.keys, Json.WellFormed]
    · cases h
  | _ => simp [toDate] at h

/-- What a coercion makes repeats no key. -/
lemma wellFormed_of_apply {coercion : Coercion} {value result : Json}
    (h : coercion.apply value = some result) : result.WellFormed := by
  cases coercion with
  | text =>
    cases value <;> simp only [apply, toText, Option.some.injEq, reduceCtorEq] at h <;>
      rw [← h] <;> exact trivial
  | integer =>
    obtain ⟨n, rfl⟩ := exists_num_of_toInteger h
    exact trivial
  | number =>
    obtain ⟨n, rfl⟩ := exists_num_of_toNumber h
    exact trivial
  | date => exact wellFormed_of_toDate h

end EventPayload.Coercion
