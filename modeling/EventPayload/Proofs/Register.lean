import EventPayload.Mapping.Draft
import Mathlib.Data.List.Induction
import Mathlib.Data.List.Pairwise

/-!
# What a register knows

A register keeps three indexes; the laws of a draft speak of pairs of rules.  This file ties the
two together.

* `declaredSlot?` — the slot that an entry of a draft writes.
* `Contend`, `Uncontested` — two entries whose slots clash, and lists without two such entries.
* `firstWriter` — the first entry of a list that writes one of some slots.
* `Register.Tracks` — **the invariant**: each index of the register answers as a search of the
  entries seen so far would.  `Tracks.take` and `Tracks.silent` keep it.
* `Tracks.holder?_eq` — what the three indexes amount to: the register names the earliest entry
  whose slot clashes with a given one.  This needs the entries to be uncontested, since a register
  looks for the writer of a top-level key before it looks for those inside it.
* `Tracks.claim_eq_ok`, `Tracks.claim_eq_error_iff` — what a granted claim leaves behind, and whom a
  claim is refused for.
-/

namespace EventPayload

/-! ## Contending entries -/

/-- The slot that an entry writes. -/
abbrev declaredSlot? (entry : String × Rule) : Option Slot :=
  entry.2.slot? entry.1

/-- **Two entries contend** when they write slots that clash. -/
def Contend (a b : String × Rule) : Prop :=
  ∃ s t, declaredSlot? a = some s ∧ declaredSlot? b = some t ∧ s.Clash t

lemma Contend.symm {a b : String × Rule} (h : Contend a b) : Contend b a := by
  obtain ⟨s, t, hs, ht, hc⟩ := h
  exact ⟨t, s, ht, hs, hc.symm⟩

lemma contend_iff_of_slot {a b : String × Rule} {slot : Slot} (hb : declaredSlot? b = some slot) :
    Contend a b ↔ ∃ s, declaredSlot? a = some s ∧ s.Clash slot := by
  simp [Contend, hb]

/-- **No two entries contend.** -/
def Uncontested (entries : List (String × Rule)) : Prop :=
  entries.Pairwise fun a b => ¬ Contend a b

lemma Uncontested.perm {xs ys : List (String × Rule)} (h : xs.Perm ys) :
    Uncontested xs ↔ Uncontested ys :=
  h.pairwise_iff fun hab hba => hab hba.symm

/-- Entries of an uncontested list that contend are one and the same. -/
lemma Uncontested.eq_of_contend {entries : List (String × Rule)} (h : Uncontested entries)
    {a b : String × Rule} (ha : a ∈ entries) (hb : b ∈ entries) (hc : Contend a b) : a = b := by
  by_contra hne
  have hsymm : Std.Symm fun x y : String × Rule => ¬ Contend x y :=
    ⟨fun _ _ hxy hyx => hxy hyx.symm⟩
  exact List.Pairwise.forall h ha hb hne hc

lemma uncontested_append_singleton {earlier : List (String × Rule)} {entry : String × Rule} :
    Uncontested (earlier ++ [entry]) ↔
      Uncontested earlier ∧ ∀ other ∈ earlier, ¬ Contend other entry := by
  simp [Uncontested, List.pairwise_append]

/-! ## The first writer -/

/-- **The first writer** of one of the slots that satisfy a test. -/
def firstWriter (test : Slot → Bool) (entries : List (String × Rule)) : Option String :=
  (entries.find? fun entry => (declaredSlot? entry).any test).map Prod.fst

lemma firstWriter_append_singleton (test : Slot → Bool) (earlier : List (String × Rule))
    (entry : String × Rule) :
    firstWriter test (earlier ++ [entry]) =
      (firstWriter test earlier).or
        (if (declaredSlot? entry).any test then some entry.1 else none) := by
  unfold firstWriter
  rw [List.find?_append, Option.map_or, List.find?_singleton]
  split <;> rfl

lemma firstWriter_eq_some {test : Slot → Bool} {entries : List (String × Rule)} {field : String}
    (h : firstWriter test entries = some field) :
    ∃ entry ∈ entries, entry.1 = field ∧ ∃ slot, declaredSlot? entry = some slot ∧ test slot := by
  obtain ⟨entry, hfind, rfl⟩ := Option.map_eq_some_iff.mp h
  have htest := List.find?_some hfind
  exact ⟨entry, List.mem_of_find?_eq_some hfind, rfl, (Option.any_eq_true _ _).mp htest⟩

lemma firstWriter_eq_none_iff (test : Slot → Bool) (entries : List (String × Rule)) :
    firstWriter test entries = none ↔
      ∀ entry ∈ entries, ∀ slot, declaredSlot? entry = some slot → test slot = false := by
  unfold firstWriter
  rw [Option.map_eq_none_iff, List.find?_eq_none]
  refine forall₂_congr fun entry _ => ?_
  rw [Bool.not_eq_true, Option.any_eq_false]

lemma firstWriter_congr {test other : Slot → Bool} {entries : List (String × Rule)}
    (h : ∀ entry ∈ entries, ∀ slot, declaredSlot? entry = some slot → test slot = other slot) :
    firstWriter test entries = firstWriter other entries := by
  induction entries with
  | nil => rfl
  | cons entry rest ih =>
    have hrest := ih fun e he => h e (List.mem_cons_of_mem _ he)
    have hhead : (declaredSlot? entry).any test = (declaredSlot? entry).any other := by
      cases hs : declaredSlot? entry with
      | none => rfl
      | some slot => exact h entry List.mem_cons_self slot hs
    simp only [firstWriter, List.find?_cons, hhead] at hrest ⊢
    split
    · rfl
    · exact hrest

/-- Where only one of two tests is ever met, their first writers make up that of either. -/
lemma firstWriter_or {test other : Slot → Bool} {entries : List (String × Rule)}
    (h : ∀ a ∈ entries, ∀ b ∈ entries, ∀ s t, declaredSlot? a = some s → declaredSlot? b = some t →
      test s = true → other t = false) :
    (firstWriter test entries).or (firstWriter other entries)
      = firstWriter (fun slot => test slot || other slot) entries := by
  cases hfirst : firstWriter test entries with
  | none =>
    rw [Option.none_or]
    refine firstWriter_congr fun entry he slot hs => ?_
    rw [(firstWriter_eq_none_iff test entries).mp hfirst entry he slot hs, Bool.false_or]
  | some field =>
    obtain ⟨a, ha, -, s, hs, htest⟩ := firstWriter_eq_some hfirst
    rw [Option.some_or, ← hfirst]
    refine firstWriter_congr fun b hb t ht => ?_
    rw [h a ha b hb s t hs ht htest, Bool.or_false]

/-! ## The invariant -/

def Slot.liesIn (outer : String) : Slot → Bool
  | .top _ => false
  | .within key _ => key = outer

/-- **What a register knows.**  Each index answers as a search of the entries seen so far. -/
structure Register.Tracks (register : Register) (earlier : List (String × Rule)) : Prop where
  tops : ∀ name, Entries.get? register.tops name = firstWriter (· = .top name) earlier
  outers : ∀ outer, Entries.get? register.outers outer = firstWriter (Slot.liesIn outer) earlier
  inners : ∀ outer inner, register.inners.lookup (outer, inner)
    = firstWriter (· = .within outer inner) earlier

namespace Register.Tracks

lemma empty : Tracks {} [] :=
  ⟨fun _ => rfl, fun _ => rfl, fun _ _ => rfl⟩

variable {register : Register} {earlier : List (String × Rule)} {entry : String × Rule}

lemma silent (h : register.Tracks earlier) (hs : declaredSlot? entry = none) :
    register.Tracks (earlier ++ [entry]) where
  tops name := by simp [firstWriter_append_singleton, hs, h.tops name]
  outers outer := by simp [firstWriter_append_singleton, hs, h.outers outer]
  inners outer inner := by simp [firstWriter_append_singleton, hs, h.inners outer inner]

/-- **What the three indexes amount to.**  The field in the way of a slot is the earliest one that
writes a slot clashing with it. -/
theorem holder?_eq (h : register.Tracks earlier) (hu : Uncontested earlier) (slot : Slot) :
    register.holder? slot = firstWriter (fun own => own.Clash slot) earlier := by
  have hsame : ∀ a ∈ earlier, ∀ b ∈ earlier, ∀ s t, declaredSlot? a = some s →
      declaredSlot? b = some t → s.Clash t → s = t := by
    intro a ha b hb s t hs ht hc
    obtain rfl := hu.eq_of_contend ha hb ⟨s, t, hs, ht, hc⟩
    exact Option.some.inj (hs.symm.trans ht)
  cases slot with
  | top name =>
    rw [holder?, h.tops, h.outers, firstWriter_or]
    · refine firstWriter_congr fun e _ s _ => ?_
      cases s <;> simp [Slot.liesIn, eq_comm]
    · intro a ha b hb s t hs ht htest
      obtain rfl : s = .top name := by simpa using htest
      cases t with
      | top key => rfl
      | within outer inner =>
        by_contra hin
        obtain rfl : outer = name := by simpa [Slot.liesIn] using hin
        exact Slot.noConfusion (hsame a ha b hb _ _ hs ht (by simp))
  | within outer inner =>
    rw [holder?, h.tops, h.inners, firstWriter_or]
    · refine firstWriter_congr fun e _ s _ => ?_
      cases s <;> simp [eq_comm]
    · intro a ha b hb s t hs ht htest
      obtain rfl : s = .top outer := by simpa using htest
      by_contra hin
      obtain rfl : t = .within outer inner := by simpa using hin
      exact Slot.noConfusion (hsame a ha b hb _ _ hs ht (by simp))

/-- **Taking a free slot keeps the invariant.**  That the slot is free matters for top-level keys:
writing the index again would put a later field in the place of the first. -/
theorem take (h : register.Tracks earlier) {slot : Slot} (hs : declaredSlot? entry = some slot)
    (hfree : register.holder? slot = none) :
    (register.take entry.1 slot).Tracks (earlier ++ [entry]) := by
  cases slot with
  | top name =>
    obtain ⟨htop, -⟩ := Option.or_eq_none_iff.mp hfree
    refine ⟨fun key => ?_, fun outer => ?_, fun outer inner => ?_⟩
    · rw [Register.take, Entries.get?_insert, firstWriter_append_singleton, ← h.tops, hs]
      by_cases hk : name = key
      · subst hk; simp [htop]
      · simp [hk]
    · simp [Register.take, firstWriter_append_singleton, hs, h.outers, Slot.liesIn]
    · simp [Register.take, firstWriter_append_singleton, hs, h.inners]
  | within outer inner =>
    obtain ⟨-, hinner⟩ := Option.or_eq_none_iff.mp hfree
    refine ⟨fun key => ?_, fun key => ?_, fun key place => ?_⟩
    · simp [Register.take, firstWriter_append_singleton, hs, h.tops]
    · rw [Register.take, Entries.get?_addMissing, firstWriter_append_singleton, ← h.outers, hs]
      by_cases hk : outer = key <;> simp [Slot.liesIn, Entries.get?, hk]
    · rw [Register.take, List.lookup_cons, firstWriter_append_singleton, ← h.inners, hs]
      by_cases hk : (outer, inner) = (key, place)
      · obtain ⟨rfl, rfl⟩ := Prod.mk.inj hk
        simp [hinner]
      · have hne : (key, place) ≠ (outer, inner) := fun he => hk he.symm
        have hslot : Slot.within outer inner ≠ .within key place := by simpa using hk
        simp [beq_false_of_ne hne, hslot]

end Register.Tracks

/-! ## Claims -/

/-- **The rival of an entry**: the earliest of the entries before it with which it contends. -/
def Rival (earlier : List (String × Rule)) (entry : String × Rule) (first : String) : Prop :=
  ∃ before rule after, earlier = before ++ (first, rule) :: after ∧ Contend (first, rule) entry ∧
    ∀ other ∈ before, ¬ Contend other entry

theorem rival_iff_firstWriter {earlier : List (String × Rule)} {entry : String × Rule}
    {slot : Slot} (hs : declaredSlot? entry = some slot) (first : String) :
    Rival earlier entry first
      ↔ firstWriter (fun own => own.Clash slot) earlier = some first := by
  have htest : ∀ other, (declaredSlot? other).any (fun own => decide (own.Clash slot)) = true
      ↔ Contend other entry := by
    intro other
    rw [Option.any_eq_true, contend_iff_of_slot hs]
    simp only [decide_eq_true_eq]
  unfold firstWriter Rival
  simp only [Option.map_eq_some_iff, List.find?_eq_some_iff_append, htest, Bool.not_eq_true',
    ← Bool.not_eq_true]
  constructor
  · rintro ⟨before, rule, after, hsplit, hc, hbefore⟩
    exact ⟨(first, rule), ⟨hc, before, after, hsplit, hbefore⟩, rfl⟩
  · rintro ⟨⟨_, rule⟩, ⟨hc, before, after, hsplit, hbefore⟩, rfl⟩
    exact ⟨before, rule, after, hsplit, hc, hbefore⟩

namespace Register.Tracks

variable {register : Register} {earlier : List (String × Rule)} {entry : String × Rule}

/-- **A granted claim** leaves a register that knows of the entry, which contends with no other. -/
theorem claim_eq_ok (h : register.Tracks earlier) (hu : Uncontested earlier) {next : Register}
    (hok : register.claim entry = .ok next) :
    next.Tracks (earlier ++ [entry]) ∧ Uncontested (earlier ++ [entry]) := by
  rw [uncontested_append_singleton]
  cases hs : declaredSlot? entry with
  | none =>
    obtain rfl : register = next := by simpa [claim, hs] using hok
    exact ⟨h.silent hs, hu, fun other _ ⟨_, _, _, ht, _⟩ => by simp [hs] at ht⟩
  | some slot =>
    cases hholder : register.holder? slot with
    | some first => simp [claim, hs, hholder] at hok
    | none =>
      obtain rfl : register.take entry.1 slot = next := by simpa [claim, hs, hholder] using hok
      refine ⟨h.take hs hholder, hu, fun other ho hc => ?_⟩
      obtain ⟨s, hslot, hclash⟩ := (contend_iff_of_slot hs).mp hc
      rw [h.holder?_eq hu, firstWriter_eq_none_iff] at hholder
      exact of_decide_eq_false (hholder other ho s hslot) hclash

/-- **A refused claim** names the entry's slot and its rival. -/
theorem claim_eq_error_iff (h : register.Tracks earlier) (hu : Uncontested earlier)
    (defect : Defect) :
    register.claim entry = .error defect ↔
      ∃ slot first, declaredSlot? entry = some slot ∧ Rival earlier entry first ∧
        defect = .contested slot first entry.1 := by
  cases hs : declaredSlot? entry with
  | none => simp [claim, hs]
  | some slot =>
    simp only [claim, hs, h.holder?_eq hu, Option.some.injEq, rival_iff_firstWriter hs]
    cases firstWriter (fun own => decide (own.Clash slot)) earlier with
    | none => simp
    | some first => simp [eq_comm]

end Register.Tracks

end EventPayload
