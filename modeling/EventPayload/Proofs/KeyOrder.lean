import EventPayload.Json.Basic
import EventPayload.Proofs.Traversal

/-!
# Equality up to the order of keys

The order in which an object lists its keys carries no meaning.  This file says when two values
differ in nothing else.

* `Json.Alike` — **equality up to the order of keys**, at every depth.  An object that repeats a key
  is alike to nothing, not even to itself.
* `alike_obj_iff` — objects are alike exactly if alike values can be read from them at every key.
  All that is shown of alike records goes through this law.
* `Alike.symm`, `alike_self_iff` — the relation is symmetric, and the values that are alike to
  themselves are the well-formed ones.
* `alike_overlay`, `alike_erase`, `alike_insert`, `alike_addMissing` — the operations on records
  respect it.
-/

namespace EventPayload

namespace Json

mutual

/-- **Equality up to the order of keys**, in objects at every depth.  The items of lists stay in
their order, and no object repeats a key. -/
def Alike : Json → Json → Prop
  | arr items, arr others => AlikeItems items others
  | obj members, obj others =>
    Entries.Distinct members ∧ Entries.Distinct others ∧
      (Entries.keys members).Perm (Entries.keys others) ∧ AlikeMembers members others
  | value, other => value = other

def AlikeItems : List Json → List Json → Prop
  | [], [] => True
  | item :: rest, other :: others => Alike item other ∧ AlikeItems rest others
  | _, _ => False

def AlikeMembers : List (String × Json) → Record → Prop
  | [], _ => True
  | (key, value) :: rest, others =>
    (∃ other, Entries.get? others key = some other ∧ Alike value other) ∧
      AlikeMembers rest others

end

/-! ## Decidability -/

mutual

def decAlike : (value other : Json) → Decidable (Alike value other)
  | arr items, arr others => decAlikeItems items others
  | obj members, obj others =>
    @instDecidableAnd _ _ inferInstance (@instDecidableAnd _ _ inferInstance
      (@instDecidableAnd _ _ inferInstance (decAlikeMembers members others)))
  | null, other => inferInstanceAs (Decidable (null = other))
  | bool b, other => inferInstanceAs (Decidable (bool b = other))
  | num n, other => inferInstanceAs (Decidable (num n = other))
  | str s, other => inferInstanceAs (Decidable (str s = other))
  | arr _, null | arr _, bool _ | arr _, num _ | arr _, str _ | arr _, obj _
  | obj _, null | obj _, bool _ | obj _, num _ | obj _, str _ | obj _, arr _ => .isFalse nofun

def decAlikeItems : (items others : List Json) → Decidable (AlikeItems items others)
  | [], [] => .isTrue trivial
  | item :: rest, other :: others =>
    @instDecidableAnd _ _ (decAlike item other) (decAlikeItems rest others)
  | [], _ :: _ | _ :: _, [] => .isFalse id

def decAlikeMembers :
    (members : List (String × Json)) → (others : Record) → Decidable (AlikeMembers members others)
  | [], _ => .isTrue trivial
  | (key, value) :: rest, others =>
    @instDecidableAnd _ _
      (match h : Entries.get? others key with
        | some other => @decidable_of_iff _ (Alike value other) (by simp) (decAlike value other)
        | none => .isFalse (by simp))
      (decAlikeMembers rest others)

end

instance : DecidableRel Alike := decAlike

/-! ## Lists and objects -/

lemma alikeItems_iff (items others : List Json) :
    AlikeItems items others ↔ List.Forall₂ Alike items others := by
  induction items generalizing others with
  | nil => cases others <;> simp [AlikeItems]
  | cons item rest ih => cases others <;> simp [AlikeItems, ih]

lemma alikeMembers_iff (members others : Record) :
    AlikeMembers members others ↔
      ∀ entry ∈ members, ∃ other, Entries.get? others entry.1 = some other ∧ Alike entry.2 other := by
  induction members with
  | nil => simp [AlikeMembers]
  | cons entry rest ih => rw [AlikeMembers, ih, List.forall_mem_cons]

theorem alike_arr_iff (items others : List Json) :
    (arr items).Alike (arr others) ↔ List.Forall₂ Alike items others := by
  rw [Alike, alikeItems_iff]

/-- **Objects are alike if they read alike.** -/
theorem alike_obj_iff (members others : Record) :
    (obj members).Alike (obj others) ↔
      Entries.Distinct members ∧ Entries.Distinct others ∧
        ∀ key, Option.Rel Alike (Entries.get? members key) (Entries.get? others key) := by
  rw [Alike, alikeMembers_iff]
  refine and_congr_right fun hmembers => and_congr_right fun hothers => ?_
  constructor
  · rintro ⟨hkeys, hvalues⟩ key
    cases hread : Entries.get? members key with
    | none =>
      have hnot : key ∉ Entries.keys others := by
        rw [← hkeys.mem_iff]
        exact (Entries.get?_eq_none_iff members key).mp hread
      rw [(Entries.get?_eq_none_iff others key).mpr hnot]
      exact .none
    | some value =>
      obtain ⟨other, hother, halike⟩ := hvalues _ (Entries.mem_of_get? hread)
      rw [hother]
      exact .some halike
  · intro hreads
    constructor
    · rw [List.perm_ext_iff_of_nodup hmembers hothers]
      intro key
      rw [← Entries.get?_isSome_iff, ← Entries.get?_isSome_iff]
      have hrel := hreads key
      generalize Entries.get? members key = x, Entries.get? others key = y at hrel ⊢
      cases hrel <;> simp
    · rintro ⟨key, value⟩ hentry
      have hrel := hreads key
      rwa [(Entries.get?_eq_some_iff hmembers key value).mpr hentry, rel_some_iff] at hrel

lemma Alike.get? {members others : Record} (h : (obj members).Alike (obj others)) (key : String) :
    Option.Rel Alike (Entries.get? members key) (Entries.get? others key) :=
  ((alike_obj_iff members others).mp h).2.2 key

lemma Alike.exists_of_get? {members others : Record} (h : (obj members).Alike (obj others))
    {key : String} {value : Json} (hvalue : Entries.get? members key = some value) :
    ∃ other, Entries.get? others key = some other ∧ value.Alike other := by
  have hrel := h.get? key
  rwa [hvalue, rel_some_iff] at hrel

/-- **Alike values have the same shape**: lists, objects, or equal values that are neither. -/
theorem Alike.shapes {value other : Json} (h : value.Alike other) :
    (∃ items others, value = arr items ∧ other = arr others ∧ List.Forall₂ Alike items others) ∨
    (∃ members others, value = obj members ∧ other = obj others ∧ (obj members).Alike (obj others)) ∨
    (value = other ∧ (∀ items, value ≠ arr items) ∧ ∀ members, value ≠ obj members) := by
  cases value <;> cases other <;> simp only [Alike, reduceCtorEq] at h
  case arr.arr items others => exact Or.inl ⟨items, others, rfl, rfl, (alikeItems_iff _ _).mp h⟩
  case obj.obj members others =>
    refine Or.inr (Or.inl ⟨members, others, rfl, rfl, ?_⟩)
    rw [Alike]
    exact h
  all_goals exact Or.inr (Or.inr ⟨by first | rfl | exact h, nofun, nofun⟩)

/-! ## Symmetry and reflexivity -/

theorem Alike.symm {value other : Json} (h : value.Alike other) : other.Alike value := by
  induction value using Json.induction generalizing other with
  | arr items ih =>
    obtain ⟨_, others, ⟨⟩, rfl, hitems⟩ | ⟨_, _, ⟨⟩, -⟩ | ⟨-, hne, -⟩ := h.shapes
    · clear h
      rw [alike_arr_iff]
      induction hitems with
      | nil => exact .nil
      | cons hitem _ ihrest =>
        rw [List.forall_mem_cons] at ih
        exact .cons (ih.1 hitem) (ihrest ih.2)
    · exact absurd rfl (hne items)
  | obj members ih =>
    obtain ⟨_, _, ⟨⟩, -⟩ | ⟨_, others, ⟨⟩, rfl, hmembers⟩ | ⟨-, -, hne⟩ := h.shapes
    · obtain ⟨hdistinct, hdistinct', hreads⟩ := (alike_obj_iff members others).mp hmembers
      refine (alike_obj_iff others members).mpr ⟨hdistinct', hdistinct, fun key => ?_⟩
      have hrel := hreads key
      cases hread : Entries.get? members key with
      | none =>
        rw [hread, rel_none_iff] at hrel
        rw [hrel]
        exact .none
      | some value =>
        rw [hread, rel_some_iff] at hrel
        obtain ⟨other, hother, halike⟩ := hrel
        rw [hother]
        exact .some (ih _ (Entries.mem_of_get? hread) halike)
    · exact absurd rfl (hne members)
  | _ =>
    obtain ⟨_, _, ⟨⟩, -⟩ | ⟨_, _, ⟨⟩, -⟩ | ⟨rfl, -⟩ := h.shapes
    exact h

/-- **Reflexivity**: the well-formed values are those that are alike to themselves. -/
theorem alike_self_iff (value : Json) : value.Alike value ↔ value.WellFormed := by
  induction value using Json.induction with
  | arr items ih =>
    rw [alike_arr_iff, List.forall₂_same, wellFormed_arr_iff]
    exact forall₂_congr ih
  | obj members ih =>
    rw [alike_obj_iff, wellFormed_obj_iff]
    constructor
    · rintro ⟨hdistinct, -, hreads⟩
      refine ⟨hdistinct, fun entry hentry => (ih entry hentry).mp ?_⟩
      have hrel := hreads entry.1
      rwa [(Entries.get?_eq_some_iff hdistinct _ _).mpr hentry, Option.rel_some_some] at hrel
    · rintro ⟨hdistinct, hvalues⟩
      refine ⟨hdistinct, hdistinct, fun key => ?_⟩
      cases hread : Entries.get? members key with
      | none => exact .none
      | some value =>
        have hentry := Entries.mem_of_get? hread
        exact .some ((ih _ hentry).mpr (hvalues _ hentry))
  | _ => simp [Alike, WellFormed]

instance : DecidablePred WellFormed :=
  fun value => decidable_of_iff _ (alike_self_iff value)

lemma Alike.isNull_eq {value other : Json} (h : value.Alike other) :
    value.isNull = other.isNull := by
  obtain ⟨_, _, rfl, rfl, -⟩ | ⟨_, _, rfl, rfl, -⟩ | ⟨rfl, -⟩ := h.shapes
  all_goals rfl

lemma Alike.isObject_eq {value other : Json} (h : value.Alike other) :
    value.isObject = other.isObject := by
  obtain ⟨_, _, rfl, rfl, -⟩ | ⟨_, _, rfl, rfl, -⟩ | ⟨rfl, -⟩ := h.shapes
  all_goals rfl

lemma Alike.asText?_eq {value other : Json} (h : value.Alike other) :
    value.asText? = other.asText? := by
  obtain ⟨_, _, rfl, rfl, -⟩ | ⟨_, _, rfl, rfl, -⟩ | ⟨rfl, -⟩ := h.shapes
  all_goals rfl

/-! ## Records -/

lemma alike_overlay {base members others : Record} (hbase : (obj base).WellFormed)
    (h : (obj members).Alike (obj others)) :
    (obj (Entries.overlay base members)).Alike (obj (Entries.overlay base others)) := by
  obtain ⟨hmembers, hothers, hreads⟩ := (alike_obj_iff members others).mp h
  obtain ⟨hdistinct, -, hself⟩ := (alike_obj_iff base base).mp ((alike_self_iff _).mpr hbase)
  refine (alike_obj_iff _ _).mpr ⟨Entries.distinct_overlay hdistinct members,
    Entries.distinct_overlay hdistinct others, fun key => ?_⟩
  rw [Entries.get?_overlay hmembers, Entries.get?_overlay hothers]
  exact rel_or (hreads key) (hself key)

lemma alike_erase {members others : Record} (h : (obj members).Alike (obj others))
    (key : String) :
    (obj (Entries.erase members key)).Alike (obj (Entries.erase others key)) := by
  obtain ⟨hmembers, hothers, hreads⟩ := (alike_obj_iff members others).mp h
  refine (alike_obj_iff _ _).mpr ⟨Entries.distinct_erase hmembers key,
    Entries.distinct_erase hothers key, fun place => ?_⟩
  rw [Entries.get?_erase, Entries.get?_erase]
  split
  · exact .none
  · exact hreads place

lemma alike_insert {members others : Record} (h : (obj members).Alike (obj others)) (key : String)
    {value other : Json} (hvalue : value.Alike other) :
    (obj (Entries.insert members key value)).Alike (obj (Entries.insert others key other)) := by
  obtain ⟨hmembers, hothers, hreads⟩ := (alike_obj_iff members others).mp h
  refine (alike_obj_iff _ _).mpr ⟨Entries.distinct_insert hmembers key value,
    Entries.distinct_insert hothers key other, fun place => ?_⟩
  rw [Entries.get?_insert, Entries.get?_insert]
  split
  · exact .some hvalue
  · exact hreads place

lemma alike_addMissing {base base' extra extra' : Record} (hbase : (obj base).Alike (obj base'))
    (hextra : (obj extra).Alike (obj extra')) :
    (obj (Entries.addMissing base extra)).Alike (obj (Entries.addMissing base' extra')) := by
  obtain ⟨hdistinct, hdistinct', hreads⟩ := (alike_obj_iff base base').mp hbase
  refine (alike_obj_iff _ _).mpr ⟨Entries.distinct_addMissing hdistinct extra,
    Entries.distinct_addMissing hdistinct' extra', fun key => ?_⟩
  rw [Entries.get?_addMissing, Entries.get?_addMissing]
  exact rel_or (hreads key) (hextra.get? key)

end Json

end EventPayload
