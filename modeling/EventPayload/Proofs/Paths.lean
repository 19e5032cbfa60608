import EventPayload.Proofs.Separators
import EventPayload.Query

/-!
# Which paths are refused

A path is taken apart at its dots and then followed segment by segment.  A segment without
characters is malformed, but it is found out only when the walk comes to it.  This file says what a
path spells, where the walk leads, and which paths are refused for which events.

* `Spells` — **the grammar**: the root mark, then each segment behind a dot.  `segments?_eq_some_iff`
  ties it to the reader of paths.
* `WellFormed` — a path that spells segments with characters only.
* `descend?`, `valueAt?` — the value at the end of a list of segments, and at the end of a path;
  `follow_of_sound` and `follow_of_empty` say what following segments comes to, without and with an
  empty one among them, and `lookup_of_wellFormed` what looking up a well-formed path does.
* `Refused`, `lookup_eq_error_iff` — **when a path is refused**: it spells nothing at all, or the
  event has a value at the end of what stands before its first empty segment.
* `lookup_refusals` — hence the well-formed paths are those that no event refuses, and for a
  malformed one the event may have a say.
* `missing_hides_empty` — a path for which it does.
-/

namespace EventPayload.Query

/-! ## Spelling -/

/-- The characters of a path: the root mark, then a dot in front of every segment. -/
def spell (segments : List (List Char)) : List Char :=
  '$' :: segments.flatMap fun segment => '.' :: segment

/-- **What a path spells.**  Segments have no dots in them; they may be empty. -/
def Spells (path : String) (segments : List (List Char)) : Prop :=
  path.toList = spell segments ∧ ∀ segment ∈ segments, '.' ∉ segment

instance (path : String) (segments : List (List Char)) : Decidable (Spells path segments) :=
  inferInstanceAs (Decidable (_ ∧ _))

/-- **A well-formed path**: the root mark alone, or followed by segments that have characters, each
behind a single dot. -/
def WellFormed (path : String) : Prop :=
  ∃ segments, Spells path segments ∧ [] ∉ segments

lemma spell_cons (segment : List Char) (rest : List (List Char)) :
    spell (segment :: rest) = '$' :: '.' :: ['.'].intercalate (segment :: rest) := by
  induction rest generalizing segment with
  | nil => simp [spell]
  | cons next rest ih =>
    have htail := ih next
    simp only [spell, List.flatMap_cons, List.cons_append, List.cons.injEq, true_and] at htail ⊢
    rw [List.intercalate_cons_cons, htail]
    simp

/-- **The reader of paths reads what a path spells.** -/
theorem segments?_eq_some_iff (path : String) (segments : List (List Char)) :
    segments? path.toList = some segments ↔ Spells path segments := by
  rw [Spells]
  constructor
  · intro h
    unfold segments? at h
    split at h
    · next hpath =>
      obtain rfl := Option.some.inj h
      exact ⟨hpath, by simp⟩
    · next rest hpath =>
      obtain rfl := Option.some.inj h
      refine ⟨?_, fun segment hsegment => not_mem_of_mem_splitOn hsegment⟩
      rw [hpath]
      cases hsplit : rest.splitOn '.' with
      | nil => exact absurd hsplit (List.splitOn_ne_nil _ _)
      | cons first others => rw [spell_cons, ← hsplit, List.intercalate_splitOn]
    · cases h
  · rintro ⟨hpath, hdots⟩
    rw [hpath]
    cases segments with
    | nil => rfl
    | cons first others =>
      rw [spell_cons, segments?, List.splitOn_intercalate '.' hdots (List.cons_ne_nil _ _)]

lemma wellFormed_iff (path : String) :
    WellFormed path ↔ ((segments? path.toList).any fun segments => [] ∉ segments) = true := by
  simp only [WellFormed, ← segments?_eq_some_iff, Option.any_eq_true, decide_eq_true_eq]

instance : DecidablePred WellFormed :=
  fun path => decidable_of_iff _ (wellFormed_iff path).symm

lemma Spells.unique {path : String} {segments others : List (List Char)}
    (h : Spells path segments) (h' : Spells path others) : segments = others := by
  rw [← segments?_eq_some_iff] at h h'
  exact Option.some.inj (h.symm.trans h')

/-! ## The walk -/

/-- **The value at the end of a list of segments**, if there is one. -/
def descend? (segments : List (List Char)) (value : Json) : Option Json :=
  segments.foldlM (fun value segment => child? segment value) value

lemma follow_append (invalid : InvalidPath) {before : List (List Char)} (hbefore : [] ∉ before)
    (rest : List (List Char)) (value : Json) :
    follow invalid (before ++ rest) value
      = match descend? before value with
        | some next => follow invalid rest next
        | none => .ok none := by
  induction before generalizing value with
  | nil => rfl
  | cons segment before ih =>
    rw [List.mem_cons, not_or] at hbefore
    obtain ⟨c, cs, rfl⟩ := List.exists_cons_of_ne_nil (Ne.symm hbefore.1)
    simp only [List.cons_append, follow, descend?, List.foldlM_cons]
    cases child? (c :: cs) value with
    | none => rfl
    | some next => exact ih hbefore.2 next

/-- Segments that all have characters are followed to their end. -/
lemma follow_of_sound (invalid : InvalidPath) {segments : List (List Char)} (h : [] ∉ segments)
    (value : Json) : follow invalid segments value = .ok (descend? segments value) := by
  have hwalk := follow_append invalid h [] value
  rw [List.append_nil] at hwalk
  rw [hwalk]
  cases descend? segments value <;> rfl

/-- An empty segment is found out if the walk comes to it. -/
lemma follow_of_empty (invalid : InvalidPath) {before : List (List Char)} (hbefore : [] ∉ before)
    (after : List (List Char)) (value : Json) :
    follow invalid (before ++ [] :: after) value
      = if (descend? before value).isSome then .error invalid else .ok none := by
  rw [follow_append invalid hbefore]
  cases descend? before value <;> rfl

/-- Segments that all have characters are followed to their end from any event. -/
lemma lookup_of_spells {path : String} {segments : List (List Char)} (hpath : Spells path segments)
    (hsound : [] ∉ segments) (event : Json) : lookup event path = .ok (descend? segments event) := by
  rw [lookup, (segments?_eq_some_iff path _).mpr hpath]
  exact follow_of_sound ⟨path⟩ hsound event

/-- **The value at a path**, at the end of the segments that it spells. -/
def valueAt? (event : Json) (path : String) : Option Json :=
  (segments? path.toList).bind fun segments => descend? segments event

lemma valueAt?_of_spells {path : String} {segments : List (List Char)} (hpath : Spells path segments)
    (event : Json) : valueAt? event path = descend? segments event := by
  rw [valueAt?, (segments?_eq_some_iff path _).mpr hpath, Option.bind_some]

/-- A well-formed path is looked up without further ado. -/
theorem lookup_of_wellFormed {path : String} (h : WellFormed path) (event : Json) :
    lookup event path = .ok (valueAt? event path) := by
  obtain ⟨segments, hpath, hsound⟩ := h
  rw [lookup_of_spells hpath hsound, valueAt?_of_spells hpath]

/-- A path with a single segment leads to a member of the event. -/
lemma valueAt?_member {path segment : String} (hpath : Spells path [segment.toList])
    (members : Record) : valueAt? (.obj members) path = Entries.get? members segment := by
  rw [valueAt?_of_spells hpath]
  cases hread : Entries.get? members segment <;> simp [descend?, child?, hread]

lemma lookup_member {path segment : String} (hpath : Spells path [segment.toList])
    (hsegment : segment ≠ "") (members : Record) :
    lookup (.obj members) path = .ok (Entries.get? members segment) := by
  have hsound : [] ∉ [segment.toList] := by
    intro hmem
    have hnil : segment.toList = [] := (List.mem_singleton.mp hmem).symm
    exact hsegment (String.toList_eq_nil_iff.mp hnil)
  rw [lookup_of_wellFormed ⟨_, hpath, hsound⟩, valueAt?_member hpath]

/-! ## Refusals -/

/-- **Why a path is refused** for an event. -/
inductive Refused (path : String) (event : Json) : Prop
  /-- It does not start with the root mark, or something else than a dot follows the mark. -/
  | unrooted (h : ∀ segments, ¬ Spells path segments)
  /-- The event has a value at the end of what stands before the first empty segment. -/
  | emptySegment {before after : List (List Char)} (hpath : Spells path (before ++ [] :: after))
      (hbefore : [] ∉ before) (hreached : (descend? before event).isSome)

/-- **When a path is refused.** -/
theorem lookup_eq_error_iff (event : Json) (path : String) (invalid : InvalidPath) :
    lookup event path = .error invalid ↔ invalid = ⟨path⟩ ∧ Refused path event := by
  constructor
  · intro h
    rw [lookup] at h
    cases hread : segments? path.toList with
    | none =>
      rw [hread] at h
      refine ⟨(Except.error.inj h).symm, .unrooted fun segments hspells => ?_⟩
      rw [← segments?_eq_some_iff, hread] at hspells
      cases hspells
    | some segments =>
      have hspells : Spells path segments := (segments?_eq_some_iff path segments).mp hread
      simp only [hread] at h
      by_cases hempty : [] ∈ segments
      · obtain ⟨before, after, rfl, hbefore⟩ := List.eq_append_cons_of_mem hempty
        rw [follow_of_empty ⟨path⟩ hbefore] at h
        split at h
        · next hreached => exact ⟨(Except.error.inj h).symm, .emptySegment hspells hbefore hreached⟩
        · cases h
      · rw [follow_of_sound ⟨path⟩ hempty] at h
        cases h
  · rintro ⟨rfl, hrefused⟩
    rw [lookup]
    cases hrefused with
    | unrooted hnone =>
      cases hread : segments? path.toList with
      | none => rfl
      | some segments => exact absurd ((segments?_eq_some_iff path segments).mp hread) (hnone segments)
    | emptySegment hpath hbefore hreached =>
      rw [(segments?_eq_some_iff path _).mpr hpath]
      simp only [follow_of_empty ⟨path⟩ hbefore, hreached, if_true]

lemma lookup_eq_ok_iff (event : Json) (path : String) :
    (∃ found, lookup event path = .ok found) ↔ ¬ Refused path event := by
  cases hlookup : lookup event path with
  | ok found =>
    simp only [Except.ok.injEq, exists_eq', true_iff]
    intro hrefused
    have herror := (lookup_eq_error_iff event path ⟨path⟩).mpr ⟨rfl, hrefused⟩
    rw [hlookup] at herror
    cases herror
  | error invalid =>
    have hrefused := ((lookup_eq_error_iff event path invalid).mp hlookup).2
    simp [hrefused]

lemma WellFormed.not_refused {path : String} (h : WellFormed path) (event : Json) :
    ¬ Refused path event := by
  obtain ⟨segments, hspells, hsound⟩ := h
  rintro (hnone | ⟨hpath, -, -⟩)
  · exact hnone segments hspells
  · rw [hspells.unique hpath] at hsound
    simp at hsound

/-! ## Events that have a say -/

/-- An event with nothing in it but what leads to the end of some segments. -/
def trail (segments : List (List Char)) : Json :=
  segments.foldr (fun segment value => .obj [(String.ofList segment, value)]) .null

lemma descend?_trail (segments : List (List Char)) : descend? segments (trail segments) = some .null := by
  induction segments with
  | nil => rfl
  | cons segment rest ih => simpa [descend?, trail, child?, Entries.get?] using ih

lemma descend?_null (segment : List Char) (rest : List (List Char)) :
    descend? (segment :: rest) .null = none := rfl

/-- A path that is not well formed spells nothing, or has a first empty segment. -/
lemma malformed_cases {path : String} (h : ¬ WellFormed path) :
    (∀ segments, ¬ Spells path segments) ∨
      ∃ before after, Spells path (before ++ [] :: after) ∧ [] ∉ before := by
  by_cases hrooted : ∃ segments, Spells path segments
  · obtain ⟨segments, hspells⟩ := hrooted
    have hempty : [] ∈ segments := by
      by_contra hsound
      exact h ⟨segments, hspells, hsound⟩
    obtain ⟨before, after, rfl, hbefore⟩ := List.eq_append_cons_of_mem hempty
    exact Or.inr ⟨before, after, hspells, hbefore⟩
  · exact Or.inl (not_exists.mp hrooted)

/-- **The refusals.**  A path is refused, as it stands, exactly if it spells nothing or the event
has a value where its first empty segment is looked for.  So the well-formed paths are those that no
event refuses; and the event has no say exactly for these, for paths that spell nothing, and for
those whose very first segment is empty. -/
theorem lookup_refusals (path : String) :
    (∀ event invalid, lookup event path = .error invalid ↔ invalid = ⟨path⟩ ∧ Refused path event) ∧
    (WellFormed path ↔ ∀ event, ∃ found, lookup event path = .ok found) ∧
    (((∀ event, Refused path event) ∨ ∀ event, ¬ Refused path event) ↔
      WellFormed path ∨ (∀ segments, ¬ Spells path segments) ∨ ∃ rest, Spells path ([] :: rest)) := by
  simp only [lookup_eq_ok_iff]
  have hsome : ¬ WellFormed path → ∃ event, Refused path event := by
    intro hmalformed
    rcases malformed_cases hmalformed with hnone | ⟨before, after, hpath, hbefore⟩
    · exact ⟨.null, .unrooted hnone⟩
    · exact ⟨trail before, .emptySegment hpath hbefore (by rw [descend?_trail]; rfl)⟩
  refine ⟨fun event invalid => lookup_eq_error_iff event path invalid, ⟨?_, ?_⟩, ⟨?_, ?_⟩⟩
  · exact fun h event => h.not_refused event
  · intro hnever
    by_contra hmalformed
    obtain ⟨event, hrefused⟩ := hsome hmalformed
    exact hnever event hrefused
  · rintro (halways | hnever)
    · -- the event without anything in it refuses only what is found out at once
      refine Or.inr ?_
      rcases halways .null with hnone | @⟨before, after, hpath, -, hreached⟩
      · exact Or.inl hnone
      · cases before with
        | nil => exact Or.inr ⟨after, hpath⟩
        | cons segment rest =>
          rw [descend?_null] at hreached
          cases hreached
    · refine Or.inl ?_
      by_contra hmalformed
      obtain ⟨event, hrefused⟩ := hsome hmalformed
      exact hnever event hrefused
  · rintro (hwell | hnone | ⟨rest, hpath⟩)
    · exact Or.inr fun event => hwell.not_refused event
    · exact Or.inl fun event => .unrooted hnone
    · exact Or.inl fun event => @Refused.emptySegment path event [] rest hpath List.not_mem_nil rfl

/-- A missing value hides the empty segment behind it: with the value there, the path is refused. -/
theorem missing_hides_empty :
    ¬ WellFormed "$.a..b" ∧ lookup (.obj []) "$.a..b" = .ok none ∧
      lookup (.obj [("a", .null)]) "$.a..b" = .error ⟨"$.a..b"⟩ := by
  refine ⟨?_, rfl, rfl⟩
  rintro ⟨segments, hspells, hsound⟩
  have hpath : Spells "$.a..b" [['a'], [], ['b']] := by decide
  rw [hspells.unique hpath] at hsound
  exact hsound (by decide)

end EventPayload.Query
