/-!
# Ordered entries

A record keeps its entries in the order in which their keys were first written.  This file holds
the operations on such lists of entries and one law per operation.

* `Entries.get?` — the value at a key.
* `Entries.insert` — writes a key: an existing key keeps its position, a new one goes last.
* `Entries.erase` — removes a key; the others keep their order.
* `Entries.overlay` — writes one list of entries over another, the later values winning.
* `Entries.addMissing` — adds the entries whose keys are absent, the earlier values winning.
* `Entries.sorted` — the entries in the order of their keys.

Records are compared by what can be read from them: `get?_insert` and the lemmas after it say what
an operation does to reading, `get?_eq_some_iff` ties reading to membership.

The list type is transparent, so a list with a repeated key can be written down; `Distinct` says
that there is none.  `insert`, `erase`, `overlay` and `addMissing` never create a repetition
(`distinct_insert` and the lemmas after it).
-/

namespace EventPayload

/-- Keyed values in a definite order. -/
abbrev Entries (α : Type) := List (String × α)

namespace Entries

variable {α : Type}

/-! ## Operations -/

/-- **Reading.**  The value of the first entry with this key. -/
def get? : Entries α → String → Option α
  | [], _ => none
  | (k, v) :: rest, key => if k = key then some v else get? rest key

def keys (entries : Entries α) : List String :=
  entries.map Prod.fst

def contains (entries : Entries α) (key : String) : Bool :=
  (get? entries key).isSome

/-- **Writing.**  The value at an existing key is replaced where it stands; a new key goes last. -/
def insert : Entries α → String → α → Entries α
  | [], key, v => [(key, v)]
  | (k, w) :: rest, key, v => if k = key then (k, v) :: rest else (k, w) :: insert rest key v

/-- **Removing.**  Every entry with this key goes; the others keep their order. -/
def erase : Entries α → String → Entries α
  | [], _ => []
  | (k, v) :: rest, key => if k = key then erase rest key else (k, v) :: erase rest key

/-- Writes each of `later` in turn, so that its values win over those of `base`. -/
def overlay (base later : Entries α) : Entries α :=
  later.foldl (fun acc entry => insert acc entry.1 entry.2) base

/-- Writes only those of `extra` whose keys are not there yet, so that the values of `base` win. -/
def addMissing (base extra : Entries α) : Entries α :=
  extra.foldl (fun acc entry => if contains acc entry.1 then acc else insert acc entry.1 entry.2)
    base

/-- The entries of a list of writes: a repeated key keeps its first position and its last value. -/
def ofWrites (writes : List (String × α)) : Entries α :=
  overlay [] writes

/-- An entry put in front of the first one with a later key. -/
def insertSorted (entry : String × α) : Entries α → Entries α
  | [] => [entry]
  | head :: rest =>
    if entry.1 < head.1 then entry :: head :: rest else head :: insertSorted entry rest

/-- **Sorting.**  The entries in the order of their keys, those of equal keys as they stood. -/
def sorted (entries : Entries α) : Entries α :=
  entries.foldl (fun acc entry => insertSorted entry acc) []

/-- No key occurs twice. -/
def Distinct (entries : Entries α) : Prop :=
  (keys entries).Nodup

instance (entries : Entries α) : Decidable (Distinct entries) :=
  inferInstanceAs (Decidable (keys entries).Nodup)

/-! ## Reading after an operation -/

@[simp] theorem get?_nil (key : String) : get? ([] : Entries α) key = none := rfl

theorem get?_cons (k key : String) (v : α) (rest : Entries α) :
    get? ((k, v) :: rest) key = if k = key then some v else get? rest key := rfl

theorem get?_isSome_iff (entries : Entries α) (key : String) :
    (get? entries key).isSome ↔ key ∈ keys entries := by
  induction entries with
  | nil => simp [keys]
  | cons entry rest ih =>
    obtain ⟨k, v⟩ := entry
    by_cases h : k = key
    · simp [get?, keys, h]
    · simp only [get?, h, if_false, ih, keys, List.map_cons, List.mem_cons]
      simp [Ne.symm h]

theorem get?_eq_none_iff (entries : Entries α) (key : String) :
    get? entries key = none ↔ key ∉ keys entries := by
  rw [← get?_isSome_iff]
  cases get? entries key <;> simp

/-- **Reading after writing.**  Only the written key changes. -/
@[simp] theorem get?_insert (entries : Entries α) (key other : String) (v : α) :
    get? (insert entries key v) other = if key = other then some v else get? entries other := by
  induction entries with
  | nil => simp [insert, get?]
  | cons entry rest ih =>
    obtain ⟨k, w⟩ := entry
    by_cases h : k = key
    · subst h
      by_cases ho : k = other <;> simp [insert, get?, ho]
    · by_cases ho : k = other
      · subst ho
        simp [insert, get?, h, Ne.symm h]
      · simp [insert, get?, h, ho, ih]

/-- **Reading after removing.**  Only the removed key changes. -/
@[simp] theorem get?_erase (entries : Entries α) (key other : String) :
    get? (erase entries key) other = if key = other then none else get? entries other := by
  induction entries with
  | nil => simp [erase]
  | cons entry rest ih =>
    obtain ⟨k, w⟩ := entry
    by_cases h : k = key
    · by_cases ho : k = other <;> simp_all [erase, get?]
    · by_cases ho : k = other
      · subst ho
        simp [erase, get?, h, Ne.symm h]
      · simp [erase, get?, h, ho, ih]

/-- **Reading after adding what is missing.**  The earlier value wins. -/
@[simp] theorem get?_addMissing (base extra : Entries α) (key : String) :
    get? (addMissing base extra) key = (get? base key).or (get? extra key) := by
  induction extra generalizing base with
  | nil => simp [addMissing]
  | cons entry rest ih =>
    obtain ⟨k, v⟩ := entry
    simp only [addMissing, List.foldl_cons] at ih ⊢
    by_cases hc : contains base k
    · rw [if_pos hc, ih, get?_cons]
      by_cases h : k = key
      · subst h
        obtain ⟨w, hw⟩ := Option.isSome_iff_exists.mp hc
        simp [hw]
      · simp [h]
    · rw [if_neg hc, ih, get?_insert, get?_cons]
      by_cases h : k = key
      · subst h
        have hn : get? base k = none := by simpa [contains] using hc
        simp [hn]
      · simp [h]

theorem get?_append (front back : Entries α) (key : String) :
    get? (front ++ back) key = (get? front key).or (get? back key) := by
  induction front with
  | nil => rfl
  | cons entry rest ih =>
    obtain ⟨k, v⟩ := entry
    rw [List.cons_append, get?_cons, get?_cons, ih]
    split <;> rfl

theorem get?_map {β : Type} (f : α → β) (entries : Entries α) (key : String) :
    get? (entries.map fun entry => (entry.1, f entry.2)) key = (get? entries key).map f := by
  induction entries with
  | nil => rfl
  | cons entry rest ih =>
    obtain ⟨k, v⟩ := entry
    rw [List.map_cons, get?_cons, get?_cons, ih]
    split <;> rfl

theorem get?_filter (p : String → Bool) (entries : Entries α) (key : String) :
    get? (entries.filter fun entry => p entry.1) key = if p key then get? entries key else none := by
  induction entries with
  | nil => simp
  | cons entry rest ih =>
    obtain ⟨k, v⟩ := entry
    by_cases hp : p k <;> by_cases h : k = key
    · subst h; simp [hp, get?]
    · simp [hp, get?, h, ih]
    · subst h; simp [hp, ih]
    · simp [hp, get?, h, ih]

/-! ## Entries as members -/

theorem mem_of_get? {entries : Entries α} {key : String} {v : α}
    (h : get? entries key = some v) : (key, v) ∈ entries := by
  induction entries with
  | nil => simp at h
  | cons entry rest ih =>
    obtain ⟨k, w⟩ := entry
    by_cases hk : k = key
    · simp [get?, hk] at h
      simp [hk, h]
    · simp only [get?, hk, if_false] at h
      exact List.mem_cons_of_mem _ (ih h)

/-- **Every entry can be read** where no key occurs twice. -/
theorem get?_eq_some_iff {entries : Entries α} (hd : Distinct entries) (key : String) (v : α) :
    get? entries key = some v ↔ (key, v) ∈ entries := by
  refine ⟨mem_of_get?, fun h => ?_⟩
  induction entries with
  | nil => simp at h
  | cons entry rest ih =>
    obtain ⟨k, w⟩ := entry
    have hrest : k ∉ keys rest ∧ Distinct rest := List.nodup_cons.mp hd
    rcases List.mem_cons.mp h with h | h
    · obtain ⟨rfl, rfl⟩ := Prod.mk.inj h
      simp [get?]
    · have hne : k ≠ key := fun he => hrest.1 (he ▸ List.mem_map_of_mem (f := Prod.fst) h)
      simp [get?, hne, ih hrest.2 h]

/-- **Reading after an overlay.**  The later value wins. -/
theorem get?_overlay {later : Entries α} (hd : Distinct later) (base : Entries α) (key : String) :
    get? (overlay base later) key = (get? later key).or (get? base key) := by
  induction later generalizing base with
  | nil => simp [overlay]
  | cons entry rest ih =>
    obtain ⟨k, v⟩ := entry
    have hrest : k ∉ keys rest ∧ Distinct rest := List.nodup_cons.mp hd
    have hstep := ih hrest.2 (insert base k v)
    rw [get?_insert] at hstep
    by_cases h : k = key
    · subst h
      have hnone := (get?_eq_none_iff rest k).mpr hrest.1
      simpa [overlay, get?, hnone] using hstep
    · simpa [overlay, get?, h] using hstep

/-! ## Keys after an operation -/

theorem contains_eq_decide (entries : Entries α) (key : String) :
    contains entries key = decide (key ∈ keys entries) := by
  rw [Bool.eq_iff_iff, contains, get?_isSome_iff, decide_eq_true_iff]

/-- **Keys after writing.**  A new key goes last, an old one stays where it was. -/
theorem keys_insert (entries : Entries α) (key : String) (v : α) :
    keys (insert entries key v)
      = if key ∈ keys entries then keys entries else keys entries ++ [key] := by
  induction entries with
  | nil => simp [insert, keys]
  | cons entry rest ih =>
    obtain ⟨k, w⟩ := entry
    by_cases h : k = key
    · subst h
      simp [insert, keys]
    · simp only [keys] at ih
      by_cases hm : key ∈ rest.map Prod.fst
      · simp [insert, keys, h, ih, hm]
      · simp [insert, keys, h, ih, hm, Ne.symm h]

theorem keys_map {β : Type} (f : α → β) (entries : Entries α) :
    keys (entries.map fun entry => (entry.1, f entry.2)) = keys entries := by
  simp [keys]

theorem erase_eq_filter (entries : Entries α) (key : String) :
    erase entries key = entries.filter fun entry => entry.1 ≠ key := by
  induction entries with
  | nil => rfl
  | cons entry rest ih =>
    obtain ⟨k, w⟩ := entry
    by_cases h : k = key <;> simp [erase, h, ih]

/-- **Keys after removing.**  The others keep their order. -/
theorem keys_erase (entries : Entries α) (key : String) :
    keys (erase entries key) = (keys entries).filter (· ≠ key) := by
  induction entries with
  | nil => rfl
  | cons entry rest ih =>
    obtain ⟨k, w⟩ := entry
    simp only [keys] at ih
    by_cases h : k = key <;> simp [erase, keys, h, ih]

theorem mem_keys_erase {entries : Entries α} {key other : String} (h : other ≠ key) :
    other ∈ keys (erase entries key) ↔ other ∈ keys entries := by
  simp [keys_erase, h]

theorem erase_append (front back : Entries α) (key : String) :
    erase (front ++ back) key = erase front key ++ erase back key := by
  simp only [erase_eq_filter, List.filter_append]

theorem erase_comm (entries : Entries α) (key other : String) :
    erase (erase entries key) other = erase (erase entries other) key := by
  simp only [erase_eq_filter, List.filter_filter, Bool.and_comm]

theorem erase_of_not_mem {entries : Entries α} {key : String} (h : key ∉ keys entries) :
    erase entries key = entries := by
  rw [erase_eq_filter, List.filter_eq_self]
  intro entry hentry
  have hne : entry.1 ≠ key := fun he => h (he ▸ List.mem_map_of_mem (f := Prod.fst) hentry)
  simpa using hne

theorem distinct_nil : Distinct ([] : Entries α) :=
  List.nodup_nil

theorem distinct_iff_pairwise (entries : Entries α) :
    Distinct entries ↔ entries.Pairwise fun a b => a.1 ≠ b.1 := by
  rw [Distinct, keys, List.nodup_iff_pairwise_ne, List.pairwise_map]

theorem distinct_insert {entries : Entries α} (h : Distinct entries) (key : String) (v : α) :
    Distinct (insert entries key v) := by
  unfold Distinct at *
  rw [keys_insert]
  split
  · exact h
  · next hm =>
    rw [List.nodup_append]
    exact ⟨h, by simp, fun a ha b hb hab => hm (by simp_all)⟩

theorem distinct_erase {entries : Entries α} (h : Distinct entries) (key : String) :
    Distinct (erase entries key) := by
  unfold Distinct at *
  rw [keys_erase]
  exact h.filter _

theorem distinct_overlay {base : Entries α} (h : Distinct base) (later : Entries α) :
    Distinct (overlay base later) := by
  induction later generalizing base with
  | nil => exact h
  | cons entry rest ih => exact ih (distinct_insert h entry.1 entry.2)

theorem distinct_addMissing {base : Entries α} (h : Distinct base) (extra : Entries α) :
    Distinct (addMissing base extra) := by
  induction extra generalizing base with
  | nil => exact h
  | cons entry rest ih =>
    simp only [addMissing, List.foldl_cons]
    split
    · exact ih h
    · exact ih (distinct_insert h entry.1 entry.2)

theorem distinct_append_singleton {entries : Entries α} {entry : String × α} :
    Distinct (entries ++ [entry]) ↔ Distinct entries ∧ entry.1 ∉ keys entries := by
  have hkeys : keys (entries ++ [entry]) = keys entries ++ [entry.1] := List.map_append
  rw [Distinct, hkeys, List.nodup_append]
  constructor
  · rintro ⟨hd, -, hne⟩
    exact ⟨hd, fun hm => hne _ hm _ (List.mem_singleton.mpr rfl) rfl⟩
  · rintro ⟨hd, hnew⟩
    refine ⟨hd, by simp, fun a ha b hb hab => ?_⟩
    rw [hab, List.mem_singleton.mp hb] at ha
    exact hnew ha

theorem distinct_perm {xs ys : Entries α} (h : xs.Perm ys) : Distinct xs ↔ Distinct ys :=
  (h.map Prod.fst).nodup_iff

/-- **The order of entries has no say in reading** where no key occurs twice. -/
theorem get?_perm {xs ys : Entries α} (hd : Distinct xs) (h : xs.Perm ys) (key : String) :
    get? xs key = get? ys key := by
  refine Option.ext fun v => ?_
  rw [get?_eq_some_iff hd, get?_eq_some_iff ((distinct_perm h).mp hd), h.mem_iff]

/-! ## Entries that are new -/

theorem insert_of_not_mem {entries : Entries α} {key : String} (h : key ∉ keys entries) (v : α) :
    insert entries key v = entries ++ [(key, v)] := by
  induction entries with
  | nil => rfl
  | cons entry rest ih =>
    obtain ⟨k, w⟩ := entry
    have hne : k ≠ key ∧ key ∉ keys rest := by
      simpa [keys, eq_comm] using h
    rw [insert, if_neg hne.1, ih hne.2, List.cons_append]

/-- What can be read after an overlay was in it, or stood there before. -/
theorem mem_or_of_get?_overlay {base later : Entries α} {key : String} {v : α}
    (h : get? (overlay base later) key = some v) : (key, v) ∈ later ∨ get? base key = some v := by
  induction later generalizing base with
  | nil => exact Or.inr h
  | cons entry rest ih =>
    rcases ih h with hrest | hbase
    · exact Or.inl (List.mem_cons_of_mem _ hrest)
    · rw [get?_insert] at hbase
      split at hbase
      · next hkey =>
        obtain rfl := Option.some.inj hbase
        exact Or.inl (by simp [← hkey])
      · exact Or.inr hbase

/-- An overlay of new entries goes last. -/
theorem overlay_of_distinct {base later : Entries α} (h : Distinct (base ++ later)) :
    overlay base later = base ++ later := by
  induction later generalizing base with
  | nil => simp [overlay]
  | cons entry rest ih =>
    obtain ⟨k, w⟩ := entry
    have hsplit : base ++ (k, w) :: rest = (base ++ [(k, w)]) ++ rest := by simp
    rw [hsplit] at h ⊢
    have hnew : k ∉ keys base := by
      have hfront : Distinct (base ++ [(k, w)]) := h.sublist (by simp [keys])
      exact (distinct_append_singleton.mp hfront).2
    rw [← ih h, ← insert_of_not_mem hnew]
    rfl

/-- **What is missing goes last**, in its order. -/
theorem addMissing_eq_append {extra : Entries α} (hd : Distinct extra) (base : Entries α) :
    addMissing base extra = base ++ extra.filter fun entry => entry.1 ∉ keys base := by
  induction extra generalizing base with
  | nil => simp [addMissing]
  | cons entry rest ih =>
    obtain ⟨k, v⟩ := entry
    have hrest : k ∉ keys rest ∧ Distinct rest := List.nodup_cons.mp hd
    rw [addMissing, List.foldl_cons, contains_eq_decide]
    by_cases hk : k ∈ keys base
    · rw [if_pos (decide_eq_true hk), List.filter_cons_of_neg (by simpa using hk)]
      exact ih hrest.2 base
    · -- the new key is not among the remaining ones, so they are judged by the base alone
      have hkeys : keys (base ++ [(k, v)]) = keys base ++ [k] := List.map_append
      have hfilter : (rest.filter fun other => other.1 ∉ keys (base ++ [(k, v)]))
          = rest.filter fun other => other.1 ∉ keys base :=
        List.filter_congr fun other hother => by
          have hne : other.1 ≠ k := fun he => hrest.1 (he ▸ List.mem_map_of_mem (f := Prod.fst) hother)
          simp [hkeys, hne]
      have hstep := ih hrest.2 (base ++ [(k, v)])
      rw [hfilter, List.append_assoc] at hstep
      rw [if_neg (by simpa using hk), List.filter_cons_of_pos (by simpa using hk),
        insert_of_not_mem hk]
      exact hstep

/-- **Keys after adding what is missing.**  The keys of the base stay where they were, and the new
ones follow. -/
theorem keys_addMissing {extra : Entries α} (hd : Distinct extra) (base : Entries α) :
    keys (addMissing base extra) = keys base ++ (keys extra).filter (· ∉ keys base) := by
  rw [addMissing_eq_append hd, keys, List.map_append, keys, keys, List.filter_map]
  rfl

/-- An overlay has the keys that there are if only what is missing is added. -/
theorem keys_overlay_eq {base other : Entries α} (h : keys base = keys other) (later : Entries α) :
    keys (overlay base later) = keys (addMissing other later) := by
  induction later generalizing base other with
  | nil => exact h
  | cons entry rest ih =>
    rw [overlay, addMissing, List.foldl_cons, List.foldl_cons, contains_eq_decide]
    refine ih ?_
    rw [keys_insert, h]
    by_cases hmem : entry.1 ∈ keys other
    · rw [if_pos hmem, if_pos (decide_eq_true hmem)]
    · rw [if_neg hmem, if_neg (by simpa using hmem), keys_insert, if_neg hmem]

/-- **Keys after an overlay.**  The keys of the base stay where they were, and the new ones follow. -/
theorem keys_overlay {later : Entries α} (hd : Distinct later) (base : Entries α) :
    keys (overlay base later) = keys base ++ (keys later).filter (· ∉ keys base) := by
  rw [keys_overlay_eq rfl, keys_addMissing hd]

/-! ## Sorting -/

theorem insertSorted_perm (entry : String × α) (entries : Entries α) :
    (insertSorted entry entries).Perm (entry :: entries) := by
  induction entries with
  | nil => exact .refl _
  | cons head rest ih =>
    unfold insertSorted
    split
    · exact .refl _
    · exact (ih.cons head).trans (.swap ..)

theorem sorted_perm (entries : Entries α) : (sorted entries).Perm entries := by
  suffices h : ∀ acc : Entries α,
      (entries.foldl (fun acc entry => insertSorted entry acc) acc).Perm (acc ++ entries) by
    simpa [sorted] using h []
  induction entries with
  | nil => intro acc; simp
  | cons entry rest ih =>
    intro acc
    refine (ih _).trans ?_
    refine ((insertSorted_perm entry acc).append_right rest).trans ?_
    simpa using List.perm_middle.symm

end Entries

end EventPayload
