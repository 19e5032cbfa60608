import EventPayload.Proofs.Numerals
import EventPayload.Proofs.Paths

/-!
# Looking up in stages

A path goes down segment by segment, so it can be cut at any of its dots but the first: what stands at
the whole path is what the rest of it finds in the value at the part before.  This file says so of the
texts of paths, and what a single segment finds.

* `Segment` — **a segment**: characters, none of them a dot, so that every list of segments makes a
  well-formed path.
* `rooted`, `spells_staged` — **the path of a list of segments**, and what it spells when more
  segments are written behind it.
* `descend?_append` — going down a list of segments in two stages.
* `index?_eq_some_iff` — which segments are **positions in a list**.
* `Step`, `lookup_step` — **one step down**, to a member of an object or to an element of a list.
* `lookup_staged` — looking up in stages, for any event.
-/

namespace EventPayload.Query

/-! ## Segments and their paths -/

/-- **A segment.** -/
structure Segment where
  text : String
  hasChars : text ≠ ""
  dotless : '.' ∉ text.toList

/-- The characters of segments. -/
def spelling (segments : List Segment) : List (List Char) :=
  segments.map fun segment => segment.text.toList

/-- Segments with a dot between them. -/
def dotted (segments : List Segment) : String :=
  String.intercalate "." (segments.map Segment.text)

/-- **The path of a list of segments.** -/
def rooted (segments : List Segment) : String :=
  "$." ++ dotted segments

lemma spelling_append (first second : List Segment) :
    spelling (first ++ second) = spelling first ++ spelling second :=
  List.map_append

lemma spelling_sound (segments : List Segment) : [] ∉ spelling segments := by
  intro hempty
  obtain ⟨segment, -, htext⟩ := List.mem_map.mp hempty
  exact segment.hasChars (String.toList_eq_nil_iff.mp htext)

lemma spelling_dotless (segments : List Segment) : ∀ chars ∈ spelling segments, '.' ∉ chars := by
  intro chars hchars
  obtain ⟨segment, -, rfl⟩ := List.mem_map.mp hchars
  exact segment.dotless

/-- Behind the root mark and a dot, joined segments are what a path is made of. -/
lemma spell_dotted {segments : List Segment} (h : segments ≠ []) :
    '$' :: '.' :: (dotted segments).toList = spell (spelling segments) := by
  cases segments with
  | nil => exact absurd rfl h
  | cons first rest =>
    rw [spelling, List.map_cons, spell_cons, dotted, String.toList_intercalate, List.map_map]
    rfl

lemma spells_rooted {segments : List Segment} (h : segments ≠ []) :
    Spells (rooted segments) (spelling segments) := by
  refine ⟨?_, spelling_dotless segments⟩
  rw [← spell_dotted h, rooted, String.toList_append]
  rfl

/-- **A path with more segments behind it** spells the segments of both parts. -/
theorem spells_staged {first second : List Segment} (hfirst : first ≠ []) (hsecond : second ≠ []) :
    Spells (rooted first ++ "." ++ dotted second) (spelling (first ++ second)) := by
  refine ⟨?_, spelling_dotless _⟩
  have hfront := (spells_rooted hfirst).1
  have hback : '.' :: (dotted second).toList
      = (spelling second).flatMap fun segment => '.' :: segment :=
    List.tail_eq_of_cons_eq (spell_dotted hsecond)
  rw [String.toList_append, String.toList_append, hfront, List.append_assoc, spelling_append, spell,
    spell, List.flatMap_append]
  exact congrArg (spell (spelling first) ++ ·) hback

/-! ## Two stages -/

/-- **Going down in two stages.** -/
theorem descend?_append (first second : List (List Char)) (value : Json) :
    descend? (first ++ second) value = (descend? first value).bind (descend? second) := by
  rw [descend?, List.foldlM_append]
  rfl

lemma lookup_rooted {segments : List Segment} (h : segments ≠ []) (event : Json) :
    lookup event (rooted segments) = .ok (descend? (spelling segments) event) :=
  lookup_of_spells (spells_rooted h) (spelling_sound segments) event

/-! ## One step -/

/-- **A position in a list, as it is written**: digits, perhaps behind a plus sign. -/
def IsPosition (segment : List Char) (i : Nat) : Prop :=
  ∃ digits, (segment = digits ∨ segment = '+' :: digits) ∧ digits ≠ [] ∧
    (∀ c ∈ digits, c.isDigit) ∧ digitsValue digits = i

/-- **The positions that are read** are those that fit into a machine word. -/
theorem index?_eq_some_iff (segment : List Char) (i : Nat) :
    index? segment = some i ↔ IsPosition segment i ∧ i < twoPow 64 := by
  simp only [index?, Option.ite_none_right_eq_some, Option.some.injEq]
  constructor
  · rintro ⟨⟨hne, hall, hbound⟩, rfl⟩
    refine ⟨⟨_, ?_, hne, List.all_eq_true.mp hall, rfl⟩, hbound⟩
    by_cases hplus : segment.head? = some '+'
    · rw [if_pos hplus]
      exact Or.inr (List.cons_head?_tail hplus).symm
    · rw [if_neg hplus]
      exact Or.inl rfl
  · rintro ⟨⟨digits, hsegment, hne, hdigits, rfl⟩, hbound⟩
    -- without its plus sign the segment is the digits, none of which is a sign
    have hread : (if segment.head? = some '+' then segment.tail else segment) = digits := by
      rcases hsegment with rfl | rfl
      · refine if_neg fun hplus => ?_
        exact (head_isDigit hdigits '+' hplus).1 rfl
      · rfl
    rw [hread]
    exact ⟨⟨hne, List.all_eq_true.mpr hdigits, hbound⟩, rfl⟩

/-- **One step down.** -/
inductive Step (segment : Segment) : Json → Json → Prop
  /-- To the member of an object that has the segment for its key. -/
  | member {members : Record} {next : Json}
      (hmember : Entries.get? members segment.text = some next) : Step segment (.obj members) next
  /-- To the element of a list at the position that the segment is. -/
  | element {items : List Json} {i : Nat} {next : Json}
      (hposition : IsPosition segment.text.toList i) (hword : i < twoPow 64)
      (hitem : items[i]? = some next) : Step segment (.arr items) next

theorem child?_eq_some_iff (segment : Segment) (value next : Json) :
    child? segment.text.toList value = some next ↔ Step segment value next := by
  cases value with
  | obj members =>
    rw [child?, String.ofList_toList]
    constructor
    · exact .member
    · intro h
      cases h with
      | member hmember => exact hmember
  | arr items =>
    rw [child?, Option.bind_eq_some_iff]
    simp only [index?_eq_some_iff]
    constructor
    · rintro ⟨i, ⟨hposition, hword⟩, hitem⟩
      exact .element hposition hword hitem
    · intro h
      cases h with
      | element hposition hword hitem => exact ⟨_, ⟨hposition, hword⟩, hitem⟩
  | _ => constructor <;> intro h <;> cases h

/-- A single segment is never refused, and finds what one step leads to. -/
lemma lookup_step (segment : Segment) (value : Json) :
    ∃ found, lookup value (rooted [segment]) = .ok found ∧
      ∀ next, found = some next ↔ Step segment value next := by
  refine ⟨_, lookup_rooted (List.cons_ne_nil _ _) value, fun next => ?_⟩
  have hchild : descend? (spelling [segment]) value = child? segment.text.toList value := by
    cases hnext : child? segment.text.toList value <;> simp [spelling, descend?, hnext]
  rw [hchild, child?_eq_some_iff]

/-- **Looking up in stages.**  A path of sound segments is never refused.  It finds nothing if a first
part of it finds nothing, and otherwise what its rest finds in the value at that part; and each single
segment finds what one step leads to. -/
theorem lookup_staged {first second : List Segment} (hfirst : first ≠ []) (hsecond : second ≠ [])
    (event : Json) :
    (∃ reached found, lookup event (rooted first) = .ok reached ∧
      lookup event (rooted first ++ "." ++ dotted second) = .ok found ∧
      (reached = none → found = none) ∧
      ∀ value, reached = some value → lookup value (rooted second) = .ok found) ∧
    ∀ segment value, ∃ found, lookup value (rooted [segment]) = .ok found ∧
      ∀ next, found = some next ↔ Step segment value next := by
  have hwhole := lookup_of_spells (spells_staged hfirst hsecond) (spelling_sound _) event
  rw [spelling_append, descend?_append] at hwhole
  refine ⟨⟨_, _, lookup_rooted hfirst event, hwhole, fun hnone => ?_, fun value hvalue => ?_⟩,
    lookup_step⟩
  · rw [hnone, Option.bind_none]
  · rw [hvalue, Option.bind_some, lookup_rooted hsecond]

/-- The way to the items of an order. -/
def itemsPath : List Segment :=
  [⟨"order", by decide, by decide⟩, ⟨"items", by decide, by decide⟩]

/-- The way from there to the size of the first item, under a key that looks like a position. -/
def sizePath : List Segment :=
  [⟨"+00", by decide, by decide⟩, ⟨"42", by decide, by decide⟩]

def orderedItems : Json :=
  .arr [.obj [("0", .str "sku"), ("42", .str "size")], .null]

def orderEvent : Json :=
  .obj [("order", .obj [("items", orderedItems)])]

theorem orderedItem_staged :
    itemsPath ≠ [] ∧ sizePath ≠ [] ∧
      lookup orderEvent "$.order.items" = .ok (some orderedItems) ∧
      lookup orderedItems "$.+00.42" = .ok (some (.str "size")) ∧
      lookup orderEvent "$.order.items.+00.42" = .ok (some (.str "size")) := by
  have hfirst : itemsPath ≠ [] := List.cons_ne_nil _ _
  have hsecond : sizePath ≠ [] := List.cons_ne_nil _ _
  have hitems : lookup orderEvent "$.order.items" = .ok (some orderedItems) := rfl
  have hsize : lookup orderedItems "$.+00.42" = .ok (some (.str "size")) := rfl
  obtain ⟨reached, found, hreached, hfound, -, hrest⟩ := (lookup_staged hfirst hsecond orderEvent).1
  obtain rfl : some orderedItems = reached := Except.ok.inj (hitems.symm.trans hreached)
  obtain rfl : some (.str "size") = found := Except.ok.inj (hsize.symm.trans (hrest _ rfl))
  exact ⟨hfirst, hsecond, hitems, hsize, hfound⟩

end EventPayload.Query
