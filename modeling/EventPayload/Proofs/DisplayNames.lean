import EventPayload.Proofs.Sources
import EventPayload.Proofs.Trimming

/-!
# Display names

A record without a name of its own gets one that is made of the parts of a name, and nothing else
in it changes.  What is filled in counts as a name, so that there is nothing left to fill in then.

* `Record.HasName` — **a record has a name**: a text that is not blank, or any other value but null.
* `Record.IsPart` — **a part of a name**: the core of a text that is not blank.
* `Record.MadeOfParts` — the name that the parts of a record make, the first name before the last.
* `Record.fillName_of_hasName`, `Record.fillName_of_parts` — a name stands, or it is made.
* `Record.keys_fillName`, `Record.fillName_fillName` — the order of the keys, and filling in twice.
* `Record.fillName_exact` — **filling in the name**: what stays, what is written, and that doing it
  again changes nothing.
-/

namespace EventPayload.Record

variable {record : Record} {key name : String}

/-! ## Names and their parts -/

/-- **A record has a name.** -/
def HasName (record : Record) : Prop :=
  ∃ value, Entries.get? record "name" = some value ∧ value ≠ .null ∧
    ∀ s, value = .str s → Text.isBlank s = false

/-- **A part of a name**: the core of the text at a key, which is not blank. -/
def IsPart (record : Record) (key part : String) : Prop :=
  ∃ s, Entries.get? record key = some (.str s) ∧ Text.isBlank s = false ∧ Text.Trims s part

/-- **The name made of the parts** that there are. -/
inductive MadeOfParts (record : Record) : String → Prop
  | both {first last : String} (hfirst : IsPart record "firstName" first)
      (hlast : IsPart record "lastName" last) : MadeOfParts record (first ++ " " ++ last)
  | first {first : String} (hfirst : IsPart record "firstName" first)
      (hlast : ∀ last, ¬ IsPart record "lastName" last) : MadeOfParts record first
  | last {last : String} (hfirst : ∀ first, ¬ IsPart record "firstName" first)
      (hlast : IsPart record "lastName" last) : MadeOfParts record last

lemma isName_iff (record : Record) :
    isName (Entries.get? record "name") = true ↔ HasName record := by
  rw [HasName]
  cases Entries.get? record "name" with
  | none => simp [isName]
  | some value => cases value <;> simp [isName]

lemma namePart?_eq_some_iff (record : Record) (key part : String) :
    namePart? record key = some part ↔ IsPart record key part := by
  have hcore : ∀ s, Text.trim s = part ↔ Text.Trims s part := fun s => Text.trim_eq_iff s part
  rw [namePart?, IsPart]
  cases Entries.get? record key with
  | none => simp
  | some value => cases value <;> simp [Json.asText?, hcore]

lemma namePart?_eq_none_iff (record : Record) (key : String) :
    namePart? record key = none ↔ ∀ part, ¬ IsPart record key part := by
  simp only [Option.eq_none_iff_forall_not_mem, Option.mem_def, namePart?_eq_some_iff]

/-- Every text that is not blank has a part of a name in it. -/
lemma exists_isPart {s : String} (hread : Entries.get? record key = some (.str s))
    (hs : Text.isBlank s = false) : ∃ part, IsPart record key part :=
  ⟨Text.trim s, s, hread, hs, Text.trims_trim s⟩

/-- A part is not empty, and no blank stands at its ends. -/
lemma IsPart.bare {part : String} (h : IsPart record key part) :
    part ≠ "" ∧ Text.Bare part.toList := by
  obtain ⟨s, -, hs, htrims⟩ := h
  refine ⟨?_, htrims.bare⟩
  rintro rfl
  rw [← Text.trim_eq_iff, Text.trim_eq_empty_iff, hs] at htrims
  exact absurd htrims Bool.false_ne_true

/-- **The same holds of the name made of parts**: the blank between them is at neither end. -/
lemma MadeOfParts.bare (h : MadeOfParts record name) : name ≠ "" ∧ Text.Bare name.toList := by
  cases h with
  | @both first last hfirst hlast =>
    obtain ⟨hne, hbare⟩ := hfirst.bare
    obtain ⟨hne', hbare'⟩ := hlast.bare
    have hchars : first.toList ≠ [] := mt String.toList_eq_nil_iff.mp hne
    have hchars' : last.toList ≠ [] := mt String.toList_eq_nil_iff.mp hne'
    rw [Ne, ← String.toList_eq_nil_iff, String.toList_append, String.toList_append]
    exact ⟨List.append_ne_nil_of_right_ne_nil _ hchars', hbare.append hbare' hchars hchars'⟩
  | first hfirst => exact hfirst.bare
  | last _ hlast => exact hlast.bare

lemma MadeOfParts.exists_isPart (h : MadeOfParts record name) :
    ∃ key ∈ ["firstName", "lastName"], ∃ part, IsPart record key part := by
  cases h with
  | both hfirst => exact ⟨"firstName", by simp, _, hfirst⟩
  | first hfirst => exact ⟨"firstName", by simp, _, hfirst⟩
  | last _ hlast => exact ⟨"lastName", by simp, _, hlast⟩

/-- The parts of a record make a name, if there are any. -/
lemma nameParts_cases (record : Record) :
    (nameParts record = [] ∧ ∀ key ∈ ["firstName", "lastName"], ∀ part, ¬ IsPart record key part) ∨
      nameParts record ≠ [] ∧ MadeOfParts record (String.intercalate " " (nameParts record)) := by
  rw [nameParts, List.filterMap_cons, List.filterMap_cons, List.filterMap_nil, List.forall_mem_cons,
    List.forall_mem_singleton, ← namePart?_eq_none_iff, ← namePart?_eq_none_iff]
  cases hfirst : namePart? record "firstName" with
  | none =>
    have hnofirst := (namePart?_eq_none_iff _ _).mp hfirst
    cases hlast : namePart? record "lastName" with
    | none => exact Or.inl ⟨rfl, rfl, rfl⟩
    | some last =>
      exact Or.inr ⟨List.cons_ne_nil _ _, .last hnofirst ((namePart?_eq_some_iff ..).mp hlast)⟩
  | some first =>
    have hfirst := (namePart?_eq_some_iff ..).mp hfirst
    refine Or.inr ⟨List.cons_ne_nil _ _, ?_⟩
    cases hlast : namePart? record "lastName" with
    | none => exact .first hfirst ((namePart?_eq_none_iff ..).mp hlast)
    | some last => exact .both hfirst ((namePart?_eq_some_iff ..).mp hlast)

/-! ## Filling in -/

lemma fillName_of_hasName (h : HasName record) : fillName record = record := by
  rw [fillName, if_pos ((isName_iff record).mpr h)]

lemma fillName_of_no_parts
    (h : ∀ key ∈ ["firstName", "lastName"], ∀ part, ¬ IsPart record key part) :
    fillName record = record := by
  rcases nameParts_cases record with ⟨hnone, -⟩ | ⟨-, hmade⟩
  · rw [fillName, hnone, ite_self]
  · obtain ⟨key, hkey, part, hpart⟩ := hmade.exists_isPart
    exact absurd hpart (h key hkey part)

/-- **A name that is missing is made of the parts**, and nothing else is written. -/
lemma fillName_of_parts (hname : ¬ HasName record) {part : String}
    (hkey : key ∈ ["firstName", "lastName"]) (hpart : IsPart record key part) :
    ∃ name, MadeOfParts record name ∧
      fillName record = Entries.insert record "name" (.str name) := by
  rcases nameParts_cases record with ⟨-, hnone⟩ | ⟨hsome, hmade⟩
  · exact absurd hpart (hnone key hkey part)
  · refine ⟨_, hmade, ?_⟩
    rw [fillName, if_neg (mt (isName_iff record).mp hname)]
    split
    · next hnil => exact absurd hnil hsome
    · rfl

/-- What is written counts as a name. -/
lemma hasName_insert (h : MadeOfParts record name) :
    HasName (Entries.insert record "name" (.str name)) := by
  obtain ⟨hne, hbare⟩ := h.bare
  refine ⟨.str name, by rw [Entries.get?_insert, if_pos rfl], by simp, fun s hs => ?_⟩
  obtain rfl := Json.str.inj hs
  exact hbare.isBlank_eq_false hne

/-- Either nothing changes, or a name is missing and the parts make one. -/
lemma fillName_cases (record : Record) :
    fillName record = record ∨ ∃ name, MadeOfParts record name ∧
      fillName record = Entries.insert record "name" (.str name) := by
  by_cases hname : HasName record
  · exact Or.inl (fillName_of_hasName hname)
  by_cases hparts : ∀ key ∈ ["firstName", "lastName"], ∀ part, ¬ IsPart record key part
  · exact Or.inl (fillName_of_no_parts hparts)
  · push Not at hparts
    obtain ⟨key, hkey, part, hpart⟩ := hparts
    exact Or.inr (fillName_of_parts hname hkey hpart)

/-- **Keys after filling in.**  None is moved, and a name that is missing goes last. -/
lemma keys_fillName (record : Record) :
    Entries.keys (fillName record) = Entries.keys record ∨
      "name" ∉ Entries.keys record ∧
        Entries.keys (fillName record) = Entries.keys record ++ ["name"] := by
  rcases fillName_cases record with hsame | ⟨name, -, hfill⟩
  · exact Or.inl (by rw [hsame])
  · rw [hfill, Entries.keys_insert]
    split
    · exact Or.inl rfl
    · next hnew => exact Or.inr ⟨hnew, rfl⟩

/-- **Filling in twice** is filling in once. -/
lemma fillName_fillName (record : Record) : fillName (fillName record) = fillName record := by
  rcases fillName_cases record with hsame | ⟨name, hmade, hfill⟩
  · rw [hsame, hsame]
  · rw [hfill]
    exact fillName_of_hasName (hasName_insert hmade)

/-- **Filling in the name.**  No other key changes its value, and no key its place; a name that is
missing goes last.  A record with a name stays as it is, and so does one without parts; any other
record gets the name that its parts make.  Doing it again changes nothing. -/
theorem fillName_exact (record : Record) :
    fillName (fillName record) = fillName record ∧
    (∀ key, key ≠ "name" → Entries.get? (fillName record) key = Entries.get? record key) ∧
    (Entries.keys (fillName record) = Entries.keys record ∨
      "name" ∉ Entries.keys record ∧
        Entries.keys (fillName record) = Entries.keys record ++ ["name"]) ∧
    (HasName record → fillName record = record) ∧
    (¬ HasName record → ∀ key ∈ ["firstName", "lastName"], ∀ s,
      Entries.get? record key = some (.str s) → Text.isBlank s = false →
        ∃ name, MadeOfParts record name ∧
          Entries.get? (fillName record) "name" = some (.str name) ∧
          name ≠ "" ∧ Text.Bare name.toList) ∧
    ((∀ key ∈ ["firstName", "lastName"], ∀ s,
      Entries.get? record key = some (.str s) → Text.isBlank s = true) →
        fillName record = record) := by
  refine ⟨fillName_fillName record, fun _ => Preparation.get?_fillName record,
    keys_fillName record, fillName_of_hasName, fun hname key hkey s hread hs => ?_, fun hblank => ?_⟩
  · obtain ⟨part, hpart⟩ := exists_isPart hread hs
    obtain ⟨name, hmade, hfill⟩ := fillName_of_parts hname hkey hpart
    refine ⟨name, hmade, ?_, hmade.bare⟩
    rw [hfill, Entries.get?_insert, if_pos rfl]
  · refine fillName_of_no_parts fun key hkey part => ?_
    rintro ⟨s, hread, hs, -⟩
    rw [hblank key hkey s hread] at hs
    cases hs

/-- A record with a blank name, and with parts that have blanks around them and in them. -/
def unnamed : Record :=
  [("lastName", .str "\u3000Lovelace\n"), ("name", .str "\t "), ("email", .null),
    ("firstName", .str " Ada  King\u00a0")]

theorem unnamed_filled :
    ¬ HasName unnamed ∧ Text.isBlank " Ada  King\u00a0" = false ∧
      fillName unnamed
        = [("lastName", .str "\u3000Lovelace\n"), ("name", .str "Ada  King Lovelace"),
            ("email", .null), ("firstName", .str " Ada  King\u00a0")] ∧
      fillName (fillName unnamed) = fillName unnamed ∧
      MadeOfParts unnamed "Ada  King Lovelace" := by
  have hname : ¬ HasName unnamed := mt (isName_iff unnamed).mpr (by decide)
  have hpart : Text.isBlank " Ada  King\u00a0" = false := by decide
  have hfill : fillName unnamed
      = [("lastName", .str "\u3000Lovelace\n"), ("name", .str "Ada  King Lovelace"),
          ("email", .null), ("firstName", .str " Ada  King\u00a0")] := by rfl
  obtain ⟨hagain, -, -, -, hmade, -⟩ := fillName_exact unnamed
  obtain ⟨name, hname', hread, -⟩ := hmade hname "firstName" (by decide) _ rfl hpart
  rw [hfill] at hread
  obtain rfl : "Ada  King Lovelace" = name := by simpa [Entries.get?] using hread
  exact ⟨hname, hpart, hfill, hagain, hname'⟩

end EventPayload.Record
