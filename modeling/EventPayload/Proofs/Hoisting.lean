import EventPayload.Preparation
import EventPayload.Proofs.KeyOrder

/-!
# What hoisting keeps

Hoisting takes the object at a key apart and puts its entries at the end of the record.  No entry is
lost but where the record has its key already, none is overwritten, and the order is the one in which
the entries stood.

* `Record.newTo` — the entries that are new to a record.
* `Record.hoist_of_obj` — **the exact result**: the record without the key, and then the entries of
  the object that are new to it.
* `Record.Apart` — **two objects that are apart**: neither has one of the two keys in it, and what
  they share the record has too.
* `Record.hoist_hoist` — what hoisting two such objects gives, one after the other.
* `Record.hoist_exact` — hence the order of two such hoists shows in the order of the keys at most.
-/

namespace EventPayload

namespace Record

/-! ## New entries -/

/-- **The entries that are new to a record**, in their order. -/
def newTo (record members : Record) : Record :=
  members.filter fun entry => entry.1 ∉ Entries.keys record

lemma mem_keys_newTo {record members : Record} {key : String} :
    key ∈ Entries.keys (newTo record members)
      ↔ key ∈ Entries.keys members ∧ key ∉ Entries.keys record := by
  simp only [Entries.keys, newTo, List.mem_map, List.mem_filter, decide_eq_true_eq]
  constructor
  · rintro ⟨entry, ⟨hentry, hnew⟩, rfl⟩
    exact ⟨⟨entry, hentry, rfl⟩, hnew⟩
  · rintro ⟨⟨entry, hentry, rfl⟩, hnew⟩
    exact ⟨entry, ⟨hentry, hnew⟩, rfl⟩

/-- What is new depends on the keys that could be taken only. -/
lemma newTo_congr {record other members : Record}
    (h : ∀ key ∈ Entries.keys members, key ∈ Entries.keys record ↔ key ∈ Entries.keys other) :
    newTo record members = newTo other members := by
  refine List.filter_congr fun entry hentry => decide_eq_decide.mpr (not_congr ?_)
  exact h entry.1 (List.mem_map_of_mem hentry)

/-! ## One object -/

/-- **The exact result of hoisting.** -/
theorem hoist_of_obj {record members : Record} {key : String}
    (hread : Entries.get? record key = some (.obj members)) (hmembers : Entries.Distinct members) :
    hoist record key
      = Entries.erase record key ++ newTo (Entries.erase record key) members := by
  have hnested : nested record key = members := by
    rw [nested, hread]
    rfl
  rw [hoist, hnested]
  exact Entries.addMissing_eq_append hmembers _

/-- Other kinds of value have no entries to be brought up. -/
lemma hoist_of_not_obj {record : Record} {key : String}
    (h : ∀ members, Entries.get? record key ≠ some (.obj members)) :
    hoist record key = Entries.erase record key := by
  have hnested : nested record key = [] := by
    rw [nested]
    cases hread : Entries.get? record key with
    | none => rfl
    | some value =>
      cases value with
      | obj members => exact absurd hread (h members)
      | _ => rfl
  rw [hoist, hnested]
  rfl

/-- The key of an object does not come up again unless the object has it, so that its entries are
judged by the record as it stood. -/
lemma hoist_of_absent {record members : Record} {key : String}
    (hread : Entries.get? record key = some (.obj members)) (hmembers : Entries.Distinct members)
    (habsent : key ∉ Entries.keys members) :
    hoist record key = Entries.erase record key ++ newTo record members := by
  have hnew : newTo (Entries.erase record key) members = newTo record members := by
    refine newTo_congr fun other hother => Entries.mem_keys_erase ?_
    rintro rfl
    exact habsent hother
  rw [hoist_of_obj hread hmembers, hnew]

/-- The objects in a well-formed record do not repeat keys. -/
lemma distinct_of_get? {record members : Record} {key : String}
    (hrecord : (Json.obj record).WellFormed)
    (hread : Entries.get? record key = some (.obj members)) : Entries.Distinct members := by
  have hmembers := ((Json.wellFormed_obj_iff record).mp hrecord).2 _ (Entries.mem_of_get? hread)
  exact ((Json.wellFormed_obj_iff members).mp hmembers).1

/-! ## Two objects -/

/-- **Two objects that are apart.** -/
structure Apart (record : Record) (first second : String) (members others : Record) : Prop where
  ne : first ≠ second
  first_obj : Entries.get? record first = some (.obj members)
  second_obj : Entries.get? record second = some (.obj others)
  /-- Neither object has an entry under one of the two keys. -/
  keysAbsent : ∀ key ∈ [first, second], key ∉ Entries.keys members ∧ key ∉ Entries.keys others
  /-- What both objects have is at the root too. -/
  shared : ∀ key ∈ Entries.keys members, key ∈ Entries.keys others → key ∈ Entries.keys record

lemma Apart.symm {record members others : Record} {first second : String}
    (h : Apart record first second members others) : Apart record second first others members where
  ne := h.ne.symm
  first_obj := h.second_obj
  second_obj := h.first_obj
  keysAbsent key hkey := (h.keysAbsent key (by simpa [or_comm] using hkey)).symm
  shared key hothers hmembers := h.shared key hmembers hothers

/-- **Hoisting two objects that are apart** brings up what is new in the one and then what is new in
the other. -/
theorem hoist_hoist {record members others : Record} {first second : String}
    (hrecord : (Json.obj record).WellFormed) (h : Apart record first second members others) :
    hoist (hoist record first) second
      = Entries.erase (Entries.erase record first) second
        ++ (newTo record members ++ newTo record others) := by
  obtain ⟨hfirst, hfirst'⟩ := h.keysAbsent first (by simp)
  obtain ⟨hsecond, hsecond'⟩ := h.keysAbsent second (by simp)
  have hmembers := distinct_of_get? hrecord h.first_obj
  have hothers := distinct_of_get? hrecord h.second_obj
  have hhoist := hoist_of_absent h.first_obj hmembers hfirst
  -- the second object is still there
  have hread : Entries.get? (hoist record first) second = some (.obj others) := by
    rw [hhoist, Entries.get?_append, Entries.get?_erase, if_neg h.ne, h.second_obj, Option.some_or]
  -- and what came up of the first one has no say in what is new in it
  have hnew : newTo (hoist record first) others = newTo record others := by
    refine newTo_congr fun key hkey => ?_
    have hne : key ≠ first := by
      rintro rfl
      exact hfirst' hkey
    rw [hhoist, Entries.keys, List.map_append, List.mem_append]
    constructor
    · rintro (hold | hcommon)
      · exact (Entries.mem_keys_erase hne).mp hold
      · obtain ⟨hmem, habsent⟩ := mem_keys_newTo.mp hcommon
        exact absurd (h.shared key hmem hkey) habsent
    · exact fun hold => Or.inl ((Entries.mem_keys_erase hne).mpr hold)
  have hkept : Entries.erase (newTo record members) second = newTo record members :=
    Entries.erase_of_not_mem fun hmem => hsecond (mem_keys_newTo.mp hmem).1
  rw [hoist_of_absent hread hothers hsecond', hnew, hhoist, Entries.erase_append, hkept,
    List.append_assoc]

/-- **Hoisting.**  What is at the root stays as it stands, but for the key that is hoisted; the
entries of its object follow as they stand, but for those whose keys are there already.  Two objects
that are apart can be hoisted in either order, which shows in the order of the keys at most. -/
theorem hoist_exact {record : Record} (hrecord : (Json.obj record).WellFormed) :
    (∀ key members, Entries.get? record key = some (.obj members) →
      hoist record key = (record.filter fun entry => entry.1 ≠ key)
        ++ newTo (record.filter fun entry => entry.1 ≠ key) members) ∧
    (∀ key, (∀ members, Entries.get? record key ≠ some (.obj members)) →
      hoist record key = record.filter fun entry => entry.1 ≠ key) ∧
    ∀ first second members others, Apart record first second members others →
      (hoist (hoist record first) second).Perm (hoist (hoist record second) first) := by
  refine ⟨fun key members hread => ?_, fun key hobj => ?_, fun first second members others hapart => ?_⟩
  · rw [← Entries.erase_eq_filter]
    exact hoist_of_obj hread (distinct_of_get? hrecord hread)
  · rw [← Entries.erase_eq_filter]
    exact hoist_of_not_obj hobj
  · rw [hoist_hoist hrecord hapart, hoist_hoist hrecord hapart.symm, Entries.erase_comm]
    exact List.perm_append_comm.append_left _

/-- An entry of the object may come up under the key of the object itself. -/
example : hoist [("seat", .obj [("row", .str "2"), ("seat", .str "left")]), ("row", .str "1")] "seat"
    = [("row", .str "1"), ("seat", .str "left")] := rfl

def visitorTraits : Record :=
  [("mail", .str "c@d.e"), ("age", .str "41")]

def visitorProperties : Record :=
  [("plan", .str "pro"), ("mail", .str "x@y.z")]

/-- A visitor with two objects that have different mail addresses, neither of them its own. -/
def visitor : Record :=
  [("traits", .obj visitorTraits), ("mail", .str "a@b.c"), ("properties", .obj visitorProperties)]

theorem visitor_hoisted :
    (Json.obj visitor).WellFormed ∧
      Apart visitor "traits" "properties" visitorTraits visitorProperties ∧
      hoist (hoist visitor "traits") "properties"
        = [("mail", .str "a@b.c"), ("age", .str "41"), ("plan", .str "pro")] ∧
      (hoist (hoist visitor "traits") "properties").Perm
        (hoist (hoist visitor "properties") "traits") := by
  have hvisitor : (Json.obj visitor).WellFormed := by decide
  have hapart : Apart visitor "traits" "properties" visitorTraits visitorProperties :=
    ⟨by decide, rfl, rfl, by decide, by decide⟩
  exact ⟨hvisitor, hapart, rfl, (hoist_exact hvisitor).2.2 _ _ _ _ hapart⟩

end Record

end EventPayload
