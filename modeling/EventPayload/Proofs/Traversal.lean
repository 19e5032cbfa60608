import EventPayload.Proofs.Results
import Mathlib.Data.List.Forall2
import Mathlib.Data.List.Induction

/-!
# Going through a list, with failures

Two ways of going through a list entry by entry, ended by the first failure.

* `mapM_eq_ok_iff`, `mapM_eq_ok_iff_forall₂`, `mapM_eq_error_iff` — each entry on its own;
  `Agree.mapM` takes two lists side by side.
* `Scan` — each entry in view of those before it: what the state knows of the entries taken is an
  invariant, and a step fails exactly for a reason that can be given without the state.  `Scan.run`
  is the induction; `Scan.eq_ok_iff` and `Scan.eq_error_iff` are what it gives.
-/

namespace EventPayload

variable {α ε : Type}

/-! ## Entries on their own -/

section

variable {β : Type}

lemma mapM_eq_ok_iff (f : α → Except ε β) (xs : List α) :
    (∃ ys, xs.mapM f = .ok ys) ↔ ∀ x ∈ xs, ∃ y, f x = .ok y := by
  induction xs with
  | nil => simp
  | cons x xs ih =>
    rw [List.forall_mem_cons, ← ih, List.mapM_cons]
    simp only [bind_eq_bind, pure_eq_ok, bind_eq_ok_iff, Except.ok.injEq]
    constructor
    · rintro ⟨_, y, hy, ys, hys, -⟩
      exact ⟨⟨y, hy⟩, ys, hys⟩
    · rintro ⟨⟨y, hy⟩, ys, hys⟩
      exact ⟨_, y, hy, ys, hys, rfl⟩

lemma mapM_eq_error_iff (f : α → Except ε β) (xs : List α) (e : ε) :
    xs.mapM f = .error e ↔
      ∃ before x after, xs = before ++ x :: after ∧ (∀ y ∈ before, ∃ z, f y = .ok z) ∧
        f x = .error e := by
  constructor
  · intro h
    induction xs with
    | nil => simp at h
    | cons x xs ih =>
      rw [List.mapM_cons] at h
      simp only [bind_eq_bind, pure_eq_ok, bind_eq_error_iff, reduceCtorEq, and_false, exists_const,
        or_false] at h
      rcases h with hx | ⟨y, hy, hrest⟩
      · exact ⟨[], x, xs, rfl, by simp, hx⟩
      · obtain ⟨before, z, after, rfl, hbefore, hz⟩ := ih hrest
        exact ⟨x :: before, z, after, rfl, List.forall_mem_cons.mpr ⟨⟨y, hy⟩, hbefore⟩, hz⟩
  · rintro ⟨before, x, after, rfl, hbefore, hx⟩
    obtain ⟨ys, hys⟩ := (mapM_eq_ok_iff f before).mpr hbefore
    rw [List.mapM_append, hys, List.mapM_cons, hx]
    rfl

lemma mapM_eq_ok_iff_forall₂ (f : α → Except ε β) (xs : List α) (ys : List β) :
    xs.mapM f = .ok ys ↔ List.Forall₂ (fun x y => f x = .ok y) xs ys := by
  induction xs generalizing ys with
  | nil => simp [eq_comm]
  | cons x xs ih =>
    rw [List.mapM_cons, List.forall₂_cons_left_iff]
    simp only [bind_eq_bind, pure_eq_ok, bind_eq_ok_iff, Except.ok.injEq, ih]
    constructor
    · rintro ⟨y, hy, zs, hzs, rfl⟩
      exact ⟨y, zs, hy, hzs, rfl⟩
    · rintro ⟨y, zs, hy, hzs, rfl⟩
      exact ⟨y, hy, zs, hzs, rfl⟩

/-- Entries that agree one by one agree in all. -/
theorem Agree.mapM {α' β' : Type} {q : β → β' → Prop} {f : α → Except ε β} {g : α' → Except ε β'}
    {xs : List α} {ys : List α'} (h : List.Forall₂ (fun x y => Agree q (f x) (g y)) xs ys) :
    Agree (List.Forall₂ q) (xs.mapM f) (ys.mapM g) := by
  induction h with
  | nil => exact .done .nil
  | @cons x y xs ys hxy _ ih =>
    rw [List.mapM_cons, List.mapM_cons]
    generalize f x = u, g y = v at hxy ⊢
    cases hxy with
    | failed e e' => exact .failed e e'
    | done hxy =>
      generalize xs.mapM f = us, ys.mapM g = vs at ih ⊢
      cases ih with
      | failed e e' => exact .failed e e'
      | done hrest => exact .done (.cons hxy hrest)

end

/-! ## Scans -/

variable {σ : Type}

/-- **A scan** takes entries one by one.  `Knows` relates its state to the entries taken, `Good` is
the law for them, and `Bad` what can be wrong with the next one. -/
structure Scan (step : σ → α → Except ε σ) (start : σ) (Knows : σ → List α → Prop)
    (Good : List α → Prop) (Bad : List α → α → ε → Prop) : Prop where
  knows_nil : Knows start []
  good_nil : Good []
  good_append_singleton : ∀ before a, Good (before ++ [a]) ↔ Good before ∧ ∀ e, ¬ Bad before a e
  granted : ∀ before s a next, Good before → Knows s before → step s a = .ok next →
    Knows next (before ++ [a])
  refused : ∀ before s a e, Good before → Knows s before → (step s a = .error e ↔ Bad before a e)

namespace Scan

variable {step : σ → α → Except ε σ} {start : σ} {Knows : σ → List α → Prop}
  {Good : List α → Prop} {Bad : List α → α → ε → Prop}

lemma good_of_append (scan : Scan step start Knows Good Bad) {before after : List α}
    (h : Good (before ++ after)) : Good before := by
  induction after using List.reverseRecOn with
  | nil => simpa using h
  | append_singleton after a ih =>
    rw [← List.append_assoc, scan.good_append_singleton] at h
    exact ih h.1

lemma foldlM_append_singleton (l : List α) (a : α) (s : σ) :
    (l ++ [a]).foldlM step s = (l.foldlM step s).bind fun next => step next a := by
  rw [List.foldlM_append]
  cases l.foldlM step s with
  | error e => rfl
  | ok next => exact bind_pure (step next a)

/-- **A whole run.**  Either all entries are taken and the state knows of them, or the run ends at
the first bad one. -/
theorem run (scan : Scan step start Knows Good Bad) (l : List α) :
    (∃ s, l.foldlM step start = .ok s ∧ Good l ∧ Knows s l) ∨
      ∃ e before a after, l.foldlM step start = .error e ∧ l = before ++ a :: after ∧
        Good before ∧ Bad before a e := by
  -- from the back, since a step needs the law and the invariant for all entries before it
  induction l using List.reverseRecOn with
  | nil => exact Or.inl ⟨start, rfl, scan.good_nil, scan.knows_nil⟩
  | append_singleton l a ih =>
    rcases ih with ⟨s, hrun, hgood, hknows⟩ | ⟨e, before, b, after, hrun, rfl, hgood, hbad⟩
    · cases hstep : step s a with
      | error e =>
        have hbad := (scan.refused l s a e hgood hknows).mp hstep
        refine Or.inr ⟨e, l, a, [], ?_, rfl, hgood, hbad⟩
        rw [foldlM_append_singleton, hrun, Except.bind, hstep]
      | ok next =>
        refine Or.inl ⟨next, ?_, ?_, scan.granted l s a next hgood hknows hstep⟩
        · rw [foldlM_append_singleton, hrun, Except.bind, hstep]
        · refine (scan.good_append_singleton l a).mpr ⟨hgood, fun e hbad => ?_⟩
          have herror := (scan.refused l s a e hgood hknows).mpr hbad
          simp [hstep] at herror
    · refine Or.inr ⟨e, before, b, after ++ [a], ?_, by simp, hgood, hbad⟩
      rw [foldlM_append_singleton, hrun, Except.bind]

lemma not_good (scan : Scan step start Knows Good Bad) {before after : List α} {a : α} {e : ε}
    (hbad : Bad before a e) : ¬ Good (before ++ a :: after) := by
  intro hgood
  rw [← List.singleton_append, ← List.append_assoc] at hgood
  have hprefix : Good (before ++ [a]) := scan.good_of_append hgood
  exact ((scan.good_append_singleton before a).mp hprefix).2 e hbad

theorem eq_ok_iff (scan : Scan step start Knows Good Bad) (l : List α) :
    (∃ s, l.foldlM step start = .ok s) ↔ Good l := by
  rcases scan.run l with ⟨s, hrun, hgood, -⟩ | ⟨e, before, a, after, hrun, rfl, -, hbad⟩
  · exact ⟨fun _ => hgood, fun _ => ⟨s, hrun⟩⟩
  · refine ⟨fun ⟨s, hok⟩ => ?_, fun hgood => absurd hgood (scan.not_good hbad)⟩
    simp [hok] at hrun

lemma knows_of_eq_ok (scan : Scan step start Knows Good Bad) {l : List α} {s : σ}
    (hok : l.foldlM step start = .ok s) : Knows s l := by
  rcases scan.run l with ⟨s', hrun, -, hknows⟩ | ⟨e, -, -, -, hrun, -⟩
  · obtain rfl : s' = s := by simpa [hok] using hrun.symm
    exact hknows
  · simp [hok] at hrun

theorem eq_error_iff (scan : Scan step start Knows Good Bad) (l : List α) (e : ε) :
    l.foldlM step start = .error e ↔
      ∃ before a after, l = before ++ a :: after ∧ Good before ∧ Bad before a e := by
  constructor
  · intro herror
    rcases scan.run l with ⟨s, hrun, -⟩ | ⟨e', before, a, after, hrun, hsplit, hgood, hbad⟩
    · simp [herror] at hrun
    · obtain rfl : e' = e := by simpa [herror] using hrun.symm
      exact ⟨before, a, after, hsplit, hgood, hbad⟩
  · rintro ⟨before, a, after, rfl, hgood, hbad⟩
    obtain ⟨s, hs⟩ := (scan.eq_ok_iff before).mpr hgood
    have hstep : step s a = .error e :=
      (scan.refused before s a e hgood (scan.knows_of_eq_ok hs)).mpr hbad
    rw [List.foldlM_append, hs]
    show (step s a >>= fun next => after.foldlM step next) = .error e
    rw [hstep]
    rfl

end Scan

end EventPayload
