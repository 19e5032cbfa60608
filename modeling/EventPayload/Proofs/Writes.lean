import EventPayload.Ruleset
import Mathlib.Data.List.Induction
import Mathlib.Data.List.Pairwise

/-!
# Lists of writes

What a list of writes leaves behind, read key by key.

* `Slot.settle` — what stands at a top-level key after one write under it.
* `get?_writeAll` — **only the writes under a key matter for it**, and they settle it one after the
  other.
* `writeAll_top`, `writeAll_within` — writes that all go to the top, or all into one object.
* `Unclashing` — a list in which no two writes clash.
* `get?_writeAll_top`, `get?_writeAll_within`, `get?_writeAll_eq_none` — what can be read after such
  a list, in terms of membership only: nothing that was written is lost, and nothing is there that
  was not written.
* `Slot.get?` — what stands at a slot; `mem_writeAll` and `keys_writeAll` say what the entries are, and
  in which order.
-/

namespace EventPayload

namespace Slot

def membersOf : Option Json → Record
  | some (.obj members) => members
  | _ => []

/-- What stands at the top-level key of a slot after a write. -/
def settle (slot : Slot) (value : Json) (current : Option Json) : Json :=
  match slot with
  | top _ => value
  | within _ inner => .obj (Entries.insert (membersOf current) inner value)

lemma get?_put (tree : Record) (value : Json) (slot : Slot) (key : String) :
    Entries.get? (slot.put tree value) key
      = if slot.root = key then some (slot.settle value (Entries.get? tree key))
        else Entries.get? tree key := by
  cases slot with
  | top name => rw [put, Entries.get?_insert, root, settle]
  | within outer inner =>
    rw [put, Entries.get?_insert, root]
    split
    · next h => subst h; rfl
    · rfl

lemma distinct_put {tree : Record} (h : Entries.Distinct tree) (value : Json) (slot : Slot) :
    Entries.Distinct (slot.put tree value) := by
  cases slot <;> exact Entries.distinct_insert h _ _

end Slot

/-! ## Lists of writes -/

/-- **Only the writes under a key matter for it.** -/
theorem get?_writeAll (writes : List (Slot × Json)) (tree : Record) (key : String) :
    Entries.get? (writeAll writes tree) key
      = (writes.filter fun w => w.1.root = key).foldl
          (fun current w => some (w.1.settle w.2 current)) (Entries.get? tree key) := by
  induction writes generalizing tree with
  | nil => rfl
  | cons w rest ih =>
    have hstep := ih (w.1.put tree w.2)
    rw [Slot.get?_put] at hstep
    by_cases hroot : w.1.root = key
    · simpa [writeAll, hroot] using hstep
    · simpa [writeAll, hroot] using hstep

lemma distinct_writeAll {tree : Record} (h : Entries.Distinct tree)
    (writes : List (Slot × Json)) : Entries.Distinct (writeAll writes tree) := by
  induction writes generalizing tree with
  | nil => exact h
  | cons w rest ih => exact ih (Slot.distinct_put h w.2 w.1)

/-- Writes inside one object put their entries over those that were there. -/
lemma foldl_settle_within (outer : String) (entries : Record) (current : Option Json) :
    (entries.map fun entry => (Slot.within outer entry.1, entry.2)).foldl
        (fun current w => some (w.1.settle w.2 current)) current
      = if entries = [] then current
        else some (.obj (Entries.overlay (Slot.membersOf current) entries)) := by
  induction entries generalizing current with
  | nil => rfl
  | cons entry rest ih =>
    rw [List.map_cons, List.foldl_cons, ih]
    cases rest with
    | nil => simp [Slot.settle, Entries.overlay]
    | cons next rest => simp [Slot.settle, Slot.membersOf, Entries.overlay]

/-! ## Writes in one place -/

lemma writeAll_top (entries tree : Record) :
    writeAll (entries.map fun entry => (Slot.top entry.1, entry.2)) tree
      = Entries.overlay tree entries := by
  rw [writeAll, List.foldl_map]
  rfl

/-- What is written inside an object stands in it, and the object is there as soon as anything is. -/
lemma writeAll_within (outer : String) (entries : Record) :
    writeAll (entries.map fun entry => (Slot.within outer entry.1, entry.2)) []
      = if entries = [] then [] else [(outer, .obj (Entries.ofWrites entries))] := by
  have hmore : ∀ members later : Record,
      writeAll (later.map fun entry => (Slot.within outer entry.1, entry.2)) [(outer, .obj members)]
        = [(outer, .obj (Entries.overlay members later))] := by
    intro members later
    induction later generalizing members with
    | nil => rfl
    | cons entry rest ih =>
      have hput : (Slot.within outer entry.1).put [(outer, .obj members)] entry.2
          = [(outer, .obj (Entries.insert members entry.1 entry.2))] := by
        simp [Slot.put, Slot.container, Entries.get?, Entries.insert]
      rw [List.map_cons, writeAll, List.foldl_cons, hput]
      exact ih _
  cases entries with
  | nil => rfl
  | cons entry rest => exact hmore [(entry.1, entry.2)] rest

/-! ## Writes that do not clash -/

/-- **No two writes clash.** -/
def Unclashing (writes : List (Slot × Json)) : Prop :=
  writes.Pairwise fun a b => ¬ a.1.Clash b.1

lemma Unclashing.eq_of_clash {writes : List (Slot × Json)} (h : Unclashing writes)
    {a b : Slot × Json} (ha : a ∈ writes) (hb : b ∈ writes) (hc : a.1.Clash b.1) : a = b := by
  by_contra hne
  have hsymm : Std.Symm fun x y : Slot × Json => ¬ x.1.Clash y.1 :=
    ⟨fun _ _ hxy hyx => hxy hyx.symm⟩
  exact List.Pairwise.forall h ha hb hne hc

/-- What is written at a top-level key stands there. -/
theorem get?_writeAll_top {writes : List (Slot × Json)} (h : Unclashing writes) {name : String}
    {value : Json} (hw : (Slot.top name, value) ∈ writes) :
    Entries.get? (writeAll writes []) name = some value := by
  obtain ⟨before, after, rfl⟩ := List.append_of_mem hw
  obtain ⟨-, hafter, hbefore⟩ := List.pairwise_append.mp h
  have hroot : ∀ {s : Slot}, s.root = name → (Slot.top name).Clash s := fun hs =>
    Or.inr (Or.inl (by rw [hs]))
  have hnone : ∀ l : List (Slot × Json), (∀ w ∈ l, ¬ (Slot.top name).Clash w.1) →
      (l.filter fun w => w.1.root = name) = [] := by
    intro l hl
    refine List.filter_eq_nil_iff.mpr fun w hm hs => hl w hm (hroot (of_decide_eq_true hs))
  rw [get?_writeAll, List.filter_append, List.filter_cons_of_pos (by simp [Slot.root]),
    hnone before fun w hm hc => hbefore w hm _ List.mem_cons_self hc.symm,
    hnone after (List.pairwise_cons.mp hafter).1]
  rfl

def inside (outer : String) (writes : List (Slot × Json)) : Record :=
  writes.filterMap fun w =>
    match w.1 with
    | .within key inner => if key = outer then some (inner, w.2) else none
    | .top _ => none

lemma mem_inside (outer : String) (writes : List (Slot × Json)) (inner : String) (value : Json) :
    (inner, value) ∈ inside outer writes ↔ (Slot.within outer inner, value) ∈ writes := by
  rw [inside, List.mem_filterMap]
  constructor
  · rintro ⟨⟨slot, v⟩, hw, heq⟩
    cases slot with
    | top name => simp at heq
    | within key place =>
      by_cases hk : key = outer
      · simp only [hk, if_true, Option.some.injEq, Prod.mk.injEq] at heq
        obtain ⟨rfl, rfl⟩ := heq
        rwa [hk] at hw
      · simp [hk] at heq
  · intro hw
    exact ⟨_, hw, by simp⟩

lemma Unclashing.distinct_inside {writes : List (Slot × Json)} (h : Unclashing writes)
    (outer : String) : Entries.Distinct (inside outer writes) := by
  rw [Entries.distinct_iff_pairwise, inside]
  refine List.Pairwise.filterMap _ (fun a b hab x hx y hy hxy => hab ?_) h
  obtain ⟨s, v⟩ := a
  obtain ⟨t, w⟩ := b
  cases s <;> cases t <;> simp at hx hy
  obtain ⟨rfl, rfl⟩ := hx
  obtain ⟨rfl, rfl⟩ := hy
  simpa using hxy

lemma filter_root_eq_map_inside {writes : List (Slot × Json)} {outer : String}
    (h : ∀ value, (Slot.top outer, value) ∉ writes) :
    (writes.filter fun w => w.1.root = outer)
      = (inside outer writes).map fun entry => (Slot.within outer entry.1, entry.2) := by
  induction writes with
  | nil => rfl
  | cons w rest ih =>
    obtain ⟨slot, value⟩ := w
    have hrest := ih fun v hv => h v (List.mem_cons_of_mem _ hv)
    cases slot with
    | top name =>
      have hne : name ≠ outer := fun he => h value (by simp [he])
      simpa [inside, Slot.root, hne] using hrest
    | within key inner =>
      by_cases hk : key = outer
      · simpa [inside, Slot.root, hk] using hrest
      · simpa [inside, Slot.root, hk] using hrest

/-- What stands under a key that is only written inside of. -/
lemma get?_writeAll_outer {writes : List (Slot × Json)} {outer : String}
    (h : ∀ value, (Slot.top outer, value) ∉ writes) :
    Entries.get? (writeAll writes []) outer
      = if inside outer writes = [] then none
        else some (.obj (Entries.ofWrites (inside outer writes))) := by
  rw [get?_writeAll, filter_root_eq_map_inside h, foldl_settle_within]
  rfl

/-- **What is written inside an object stands there**, in an object that has nothing else. -/
theorem get?_writeAll_within {writes : List (Slot × Json)} (h : Unclashing writes)
    {outer inner : String} {value : Json} (hw : (Slot.within outer inner, value) ∈ writes) :
    Entries.get? (writeAll writes []) outer
      = some (.obj (Entries.ofWrites (inside outer writes))) := by
  have htop : ∀ v, (Slot.top outer, v) ∉ writes := by
    intro v hv
    have heq := h.eq_of_clash hv hw (by simp)
    simp at heq
  have hne : inside outer writes ≠ [] :=
    List.ne_nil_of_mem ((mem_inside outer writes inner value).mpr hw)
  rw [get?_writeAll_outer htop, if_neg hne]

lemma get?_ofWrites_inside {writes : List (Slot × Json)} (h : Unclashing writes)
    (outer inner : String) (value : Json) :
    Entries.get? (Entries.ofWrites (inside outer writes)) inner = some value
      ↔ (Slot.within outer inner, value) ∈ writes := by
  rw [Entries.ofWrites, Entries.get?_overlay (h.distinct_inside outer), Entries.get?_nil,
    Option.or_none, Entries.get?_eq_some_iff (h.distinct_inside outer), mem_inside]

lemma get?_writeAll_eq_none {writes : List (Slot × Json)} {key : String}
    (h : ∀ w ∈ writes, w.1.root ≠ key) : Entries.get? (writeAll writes []) key = none := by
  have hnil : (writes.filter fun w => w.1.root = key) = [] :=
    List.filter_eq_nil_iff.mpr fun w hw hroot => h w hw (of_decide_eq_true hroot)
  rw [get?_writeAll, hnil]
  rfl

/-! ## Slot by slot -/

/-- **What stands at a slot.** -/
def Slot.get? (tree : Record) : Slot → Option Json
  | top name => Entries.get? tree name
  | within outer inner => Entries.get? (container tree outer) inner

lemma get?_writeAll_of_mem {writes : List (Slot × Json)} (h : Unclashing writes) {slot : Slot}
    {value : Json} (hw : (slot, value) ∈ writes) : slot.get? (writeAll writes []) = some value := by
  cases slot with
  | top name => exact get?_writeAll_top h hw
  | within outer inner =>
    rw [Slot.get?, Slot.container, get?_writeAll_within h hw]
    exact (get?_ofWrites_inside h outer inner value).mpr hw

/-- Nothing stands at a slot that no write clashes with. -/
lemma get?_writeAll_of_free {writes : List (Slot × Json)} (h : Unclashing writes) {slot : Slot}
    (hfree : ∀ w ∈ writes, ¬ w.1.Clash slot) : slot.get? (writeAll writes []) = none := by
  cases slot with
  | top name =>
    exact get?_writeAll_eq_none fun w hw hroot => hfree w hw (Or.inr (Or.inr (by rw [hroot])))
  | within outer inner =>
    have htop : ∀ v, (Slot.top outer, v) ∉ writes := fun v hv => hfree _ hv (by simp)
    rw [Slot.get?, Slot.container, get?_writeAll_outer htop]
    split_ifs
    · rfl
    · refine Option.eq_none_iff_forall_ne_some.mpr fun value hvalue => ?_
      exact hfree _ ((get?_ofWrites_inside h outer inner value).mp hvalue) (Slot.Clash.refl _)

/-! ## Entries and keys -/

/-- **Nothing is there that was not written.**  An entry was written as it stands, or it is an
object of what was written inside it, which is something. -/
theorem mem_writeAll {writes : List (Slot × Json)} (h : Unclashing writes) {key : String}
    {value : Json} (hentry : (key, value) ∈ writeAll writes []) :
    (Slot.top key, value) ∈ writes ∨
      ∃ members, value = .obj members ∧ members ≠ [] ∧ Entries.Distinct members ∧
        ∀ inner v, (inner, v) ∈ members ↔ (Slot.within key inner, v) ∈ writes := by
  have hread : Entries.get? (writeAll writes []) key = some value :=
    (Entries.get?_eq_some_iff (distinct_writeAll Entries.distinct_nil writes) key value).mpr hentry
  by_cases htop : ∃ v, (Slot.top key, v) ∈ writes
  · obtain ⟨v, hv⟩ := htop
    rw [get?_writeAll_top h hv] at hread
    exact Or.inl (Option.some.inj hread ▸ hv)
  · rw [get?_writeAll_outer (not_exists.mp htop)] at hread
    have hdistinct : Entries.Distinct (Entries.ofWrites (inside key writes)) :=
      Entries.distinct_overlay Entries.distinct_nil _
    split at hread
    · cases hread
    · next hinside =>
      obtain ⟨⟨inner, v⟩, hv⟩ := List.exists_mem_of_ne_nil _ hinside
      refine Or.inr ⟨_, (Option.some.inj hread).symm, ?_, hdistinct, fun inner v => ?_⟩
      · rw [mem_inside, ← get?_ofWrites_inside h] at hv
        exact List.ne_nil_of_mem (Entries.mem_of_get? hv)
      · rw [← Entries.get?_eq_some_iff hdistinct, get?_ofWrites_inside h]

/-- The keys that were there stay where they are; the new ones follow, in the order in which they were
first written under. -/
theorem keys_writeAll_onto (writes : List (Slot × Json)) (tree : Record) :
    Entries.keys (writeAll writes tree)
      = Entries.keys tree
        ++ ((writes.map fun w => w.1.root).filter (· ∉ Entries.keys tree)).eraseDups := by
  induction writes using List.reverseRecOn with
  | nil => simp [writeAll]
  | append_singleton writes w ih =>
    have hput : writeAll (writes ++ [w]) tree = w.1.put (writeAll writes tree) w.2 := by
      simp [writeAll]
    rw [hput, Slot.keys_put, ih, List.map_append, List.filter_append, List.eraseDups_append,
      List.map_singleton]
    generalize (writes.map fun w => w.1.root).filter (· ∉ Entries.keys tree) = roots
    by_cases hold : w.1.root ∈ Entries.keys tree
    · simp [hold]
    · by_cases hnew : w.1.root ∈ roots
      · simp [hold, hnew, List.removeAll]
      · simp [hold, hnew, List.removeAll, List.eraseDups_cons]

lemma keys_writeAll (writes : List (Slot × Json)) :
    Entries.keys (writeAll writes []) = (writes.map fun w => w.1.root).eraseDups := by
  rw [keys_writeAll_onto, List.filter_eq_self.mpr (by simp [Entries.keys])]
  rfl

end EventPayload
