import Mathlib.Data.List.Basic

/-!
# Pieces between separators

A list can be put together from pieces with a separator between them.  It falls apart into the same
pieces again, provided that no piece has the separator in it.

* `splitOn_eq_iff` — **splitting and joining**: the pieces of a list are the one way to write it.
-/

namespace EventPayload

variable {α : Type} [DecidableEq α] {a : α}

/-- Splitting leaves no separator in the pieces. -/
lemma not_mem_of_mem_splitOn {xs piece : List α} (h : piece ∈ xs.splitOn a) : a ∉ piece := by
  induction xs generalizing piece with
  | nil =>
    rw [List.splitOn_nil, List.mem_singleton] at h
    simp [h]
  | cons x xs ih =>
    rw [List.splitOn_cons_eq_if_modifyHead] at h
    by_cases hx : x = a
    · simp only [hx, beq_self_eq_true, if_true, List.mem_cons] at h
      rcases h with rfl | h
      · exact List.not_mem_nil
      · exact ih h
    · simp only [beq_iff_eq, hx, if_false] at h
      cases hsplit : xs.splitOn a with
      | nil => exact absurd hsplit (List.splitOn_ne_nil a xs)
      | cons first others =>
        rw [hsplit] at ih h
        rw [List.modifyHead_cons, List.mem_cons] at h
        rcases h with rfl | h
        · have hfirst := ih List.mem_cons_self
          simp [hfirst, Ne.symm hx]
        · exact ih (List.mem_cons_of_mem _ h)

/-- **Splitting and joining.** -/
theorem splitOn_eq_iff {xs : List α} {pieces : List (List α)} (hne : pieces ≠ []) :
    xs.splitOn a = pieces ↔ xs = [a].intercalate pieces ∧ ∀ piece ∈ pieces, a ∉ piece := by
  constructor
  · rintro rfl
    exact ⟨(List.intercalate_splitOn a).symm, fun _ hpiece => not_mem_of_mem_splitOn hpiece⟩
  · rintro ⟨rfl, hpieces⟩
    exact List.splitOn_intercalate a hpieces hne

end EventPayload
