import EventPayload.Text.Blank
import Mathlib.Data.List.DropRight

/-!
# Texts without the blanks around them

Trimming cuts a text into three: blanks, a core that is bare, and blanks again.  There is one way
only to cut a text like that, so this is all there is to say of trimming.

* `Bare` — **no blank at either end**; the empty text is bare.
* `Trims` — **the core of a text**: bare, with nothing but blanks around it.
* `trim_eq_iff` — trimming gives the core, and nothing else is one.
* `trim_eq_empty_iff` — the core is empty exactly for blank texts.
-/

namespace EventPayload.Text

/-- **No blank at either end.** -/
structure Bare (cs : List Char) : Prop where
  head : ∀ c ∈ cs.head?, blank c = false
  last : ∀ c ∈ cs.getLast?, blank c = false

/-- **The core of a text.** -/
structure Trims (s core : String) : Prop where
  around : ∃ before after, s.toList = before ++ core.toList ++ after ∧
    (∀ c ∈ before, blank c) ∧ ∀ c ∈ after, blank c
  bare : Bare core.toList

lemma Bare.of_forall {cs : List Char} (h : ∀ c ∈ cs, blank c = false) : Bare cs where
  head c hc := h c (List.mem_of_mem_head? hc)
  last c hc := h c (List.mem_of_mem_getLast? hc)

lemma Bare.reverse {cs : List Char} (h : Bare cs) : Bare cs.reverse where
  head := by
    rw [List.head?_reverse]
    exact h.last
  last := by
    rw [List.getLast?_reverse]
    exact h.head

/-- A joined text has the ends of the texts that come first and last. -/
lemma Bare.append {front middle back : List Char} (hfront : Bare front) (hback : Bare back)
    (hne : front ≠ []) (hne' : back ≠ []) : Bare (front ++ middle ++ back) where
  head := by
    rw [List.append_assoc, List.head?_append_of_ne_nil _ hne]
    exact hfront.head
  last := by
    rw [List.getLast?_append_of_ne_nil _ hne']
    exact hback.last

/-! ## Cutting -/

/-- Blanks in front of a text that does not start with one. -/
lemma dropWhile_blank_append {before cs : List Char} (hbefore : ∀ c ∈ before, blank c)
    (hcs : ∀ c ∈ cs.head?, blank c = false) : (before ++ cs).dropWhile blank = cs := by
  rw [List.dropWhile_append_of_pos hbefore]
  cases cs with
  | nil => rfl
  | cons c rest =>
    refine List.dropWhile_cons_of_neg ?_
    rw [hcs c rfl]
    exact Bool.false_ne_true

/-- **Trimming** takes off the blanks around a bare text. -/
lemma trimChars_append {before cs after : List Char} (hbefore : ∀ c ∈ before, blank c)
    (hcs : Bare cs) (hafter : ∀ c ∈ after, blank c) :
    trimChars (before ++ cs ++ after) = cs := by
  have hreverse : ∀ c ∈ after.reverse, blank c := fun c hc => hafter c (List.mem_reverse.mp hc)
  cases hempty : cs with
  | nil =>
    have hblank : ∀ c ∈ before ++ after, blank c := List.forall_mem_append.mpr ⟨hbefore, hafter⟩
    rw [List.append_nil, trimChars, List.dropWhile_eq_nil_iff.mpr hblank]
    rfl
  | cons c rest =>
    rw [← hempty, trimChars, List.append_assoc, dropWhile_blank_append hbefore, List.reverse_append,
      dropWhile_blank_append hreverse hcs.reverse.head, List.reverse_reverse]
    rw [List.head?_append_of_ne_nil _ (by rw [hempty]; exact List.cons_ne_nil _ _)]
    exact hcs.head

lemma trimChars_eq_self {cs : List Char} (h : Bare cs) : trimChars cs = cs := by
  have htrim := trimChars_append (List.forall_mem_nil _) h (List.forall_mem_nil _)
  rwa [List.nil_append, List.append_nil] at htrim

/-- What is left when blanks are dropped does not start with one. -/
lemma head_dropWhile_blank (cs : List Char) :
    ∀ c ∈ (cs.dropWhile blank).head?, blank c = false := by
  intro c hc
  have hfirst := List.head?_dropWhile_not blank cs
  rw [Option.mem_def.mp hc] at hfirst
  exact hfirst

lemma bare_trimChars (cs : List Char) : Bare (trimChars cs) where
  head := by
    intro c hc
    -- the front of a core is the front of what is left when the blanks before it are dropped
    obtain ⟨after, hcut⟩ : trimChars cs <+: cs.dropWhile blank := List.rdropWhile_prefix ..
    refine head_dropWhile_blank cs c ?_
    rw [← hcut, List.head?_append, Option.mem_def.mp hc]
    rfl
  last := by
    rw [trimChars, List.getLast?_reverse]
    exact head_dropWhile_blank _

/-- **Trimming finds the core.** -/
lemma trims_trim (s : String) : Trims s (trim s) := by
  have hcut : trimChars s.toList ++ (s.toList.dropWhile blank).rtakeWhile blank
      = s.toList.dropWhile blank :=
    List.rdropWhile_append_rtakeWhile ..
  refine ⟨⟨s.toList.takeWhile blank, (s.toList.dropWhile blank).rtakeWhile blank, ?_, ?_, ?_⟩, ?_⟩
  · rw [trim, String.toList_ofList, List.append_assoc, hcut, List.takeWhile_append_dropWhile]
  · exact fun c hc => List.mem_takeWhile_imp hc
  · exact fun c hc => List.mem_rtakeWhile_imp hc
  · rw [trim, String.toList_ofList]
    exact bare_trimChars _

/-- **Trimming** gives the one core that a text has. -/
theorem trim_eq_iff (s core : String) : trim s = core ↔ Trims s core := by
  constructor
  · rintro rfl
    exact trims_trim s
  · rintro ⟨⟨before, after, hs, hbefore, hafter⟩, hbare⟩
    rw [trim, hs, trimChars_append hbefore hbare hafter, String.ofList_toList]

/-- Trimming leaves nothing exactly of blank texts. -/
lemma trim_eq_empty_iff (s : String) : trim s = "" ↔ isBlank s = true := by
  rw [trim_eq_iff, isBlank, List.all_eq_true]
  constructor
  · rintro ⟨⟨before, after, hs, hbefore, hafter⟩, -⟩
    rw [hs, String.toList_empty, List.append_nil]
    exact List.forall_mem_append.mpr ⟨hbefore, hafter⟩
  · intro hblank
    exact ⟨⟨s.toList, [], by simp, hblank, List.forall_mem_nil _⟩,
      .of_forall (List.forall_mem_nil _)⟩

/-- A bare text is blank only if it is empty. -/
lemma Bare.isBlank_eq_false {s : String} (h : Bare s.toList) (hne : s ≠ "") :
    isBlank s = false := by
  have hcore : trim s = s := by rw [trim, trimChars_eq_self h, String.ofList_toList]
  rwa [← Bool.not_eq_true, ← trim_eq_empty_iff, hcore]

end EventPayload.Text
