import Mathlib.Tactic.Common

/-!
# Results

What a run that can fail gives, read off its stages, and two runs side by side.

* `map_eq_ok_iff`, `bind_eq_ok_iff` and their companions — a run of several stages goes through if
  every stage does, and fails with the first stage that does.
* `Agree` — **two runs agree** when both fail or both go through with related results.
* `rel_some_iff`, `rel_none_iff` — the same for optional values, from the side of the first.
* `rel_or`, `rel_bind` — alternatives and stages of such values.
-/

namespace EventPayload

variable {ε α β : Type}

/-! ## Stages -/

section Stages

variable (x : Except ε α)

@[simp] lemma bind_eq_bind (f : α → Except ε β) : (x >>= f) = x.bind f := rfl

@[simp] lemma pure_eq_ok (a : α) : (pure a : Except ε α) = .ok a := rfl

@[simp] lemma throw_eq_error (e : ε) : (throw e : Except ε α) = .error e := rfl

@[simp] lemma map_eq_ok_iff (f : α → β) (b : β) :
    x.map f = .ok b ↔ ∃ a, x = .ok a ∧ f a = b := by
  cases x <;> simp [Except.map]

@[simp] lemma map_eq_error_iff (f : α → β) (e : ε) : x.map f = .error e ↔ x = .error e := by
  cases x <;> simp [Except.map]

@[simp] lemma bind_eq_ok_iff (f : α → Except ε β) (b : β) :
    x.bind f = .ok b ↔ ∃ a, x = .ok a ∧ f a = .ok b := by
  cases x <;> simp [Except.bind]

@[simp] lemma bind_eq_error_iff (f : α → Except ε β) (e : ε) :
    x.bind f = .error e ↔ x = .error e ∨ ∃ a, x = .ok a ∧ f a = .error e := by
  cases x <;> simp [Except.bind]

lemma exists_ok_of_ne_error {x : Except ε α} (h : ∀ e, x ≠ .error e) : ∃ a, x = .ok a := by
  cases x with
  | error e => exact absurd rfl (h e)
  | ok a => exact ⟨a, rfl⟩

@[simp] lemma mapError_eq_ok_iff {ε' : Type} (f : ε → ε') (a : α) :
    x.mapError f = .ok a ↔ x = .ok a := by
  cases x <;> simp [Except.mapError]

@[simp] lemma mapError_eq_error_iff {ε' : Type} (f : ε → ε') (e' : ε') :
    x.mapError f = .error e' ↔ ∃ e, x = .error e ∧ f e = e' := by
  cases x <;> simp [Except.mapError]

end Stages

/-! ## Two runs -/

section TwoRuns

variable {α' β' : Type} {r : α → α' → Prop} {q : β → β' → Prop}

lemma rel_some_iff (a : α) (y : Option α') :
    Option.Rel r (some a) y ↔ ∃ b, y = some b ∧ r a b := by
  cases y <;> simp

lemma rel_none_iff (y : Option α') : Option.Rel r none y ↔ y = none := by
  constructor
  · rintro ⟨⟩
    rfl
  · rintro rfl
    exact .none

lemma rel_or {a b : Option α} {a' b' : Option α'} (h : Option.Rel r a a') (h' : Option.Rel r b b') :
    Option.Rel r (a.or b) (a'.or b') := by
  cases h with
  | none => exact h'
  | some h => exact .some h

lemma rel_bind {f : α → Option β} {g : α' → Option β'} {a : Option α} {a' : Option α'}
    (h : Option.Rel r a a') (hfg : ∀ x y, r x y → Option.Rel q (f x) (g y)) :
    Option.Rel q (a.bind f) (a'.bind g) := by
  cases h with
  | none => exact .none
  | some h => exact hfg _ _ h

/-- **Two runs agree** when both fail, for whatever reasons, or both go through with related
results. -/
inductive Agree (r : α → α' → Prop) : Except ε α → Except ε α' → Prop
  | failed (e e' : ε) : Agree r (.error e) (.error e')
  | done {a : α} {b : α'} (h : r a b) : Agree r (.ok a) (.ok b)

namespace Agree

lemma ok_iff {x : Except ε α} {y : Except ε α'} (h : Agree r x y) :
    (∃ a, x = .ok a) ↔ ∃ b, y = .ok b := by
  cases h <;> simp

lemma exists_ok {a : α} {y : Except ε α'} (h : Agree r (.ok a) y) : ∃ b, y = .ok b ∧ r a b := by
  cases h with
  | done h => exact ⟨_, rfl, h⟩

lemma map {f : α → β} {g : α' → β'} {x : Except ε α} {y : Except ε α'} (h : Agree r x y)
    (hfg : ∀ a b, r a b → q (f a) (g b)) : Agree q (x.map f) (y.map g) := by
  cases h with
  | failed e e' => exact .failed e e'
  | done h => exact .done (hfg _ _ h)

end Agree

end TwoRuns

end EventPayload
