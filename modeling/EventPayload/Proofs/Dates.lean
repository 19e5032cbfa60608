import EventPayload.Coercion
import EventPayload.Proofs.NumericTexts
import EventPayload.Proofs.Separators

/-!
# Dates

A date is three runs of digits with a dash between them, and each run names an integer of thirty-two
bits without sign.  Nothing is asked of months and days, and any number of zeros may come first; only
the one text `0000` in the place of the year stands for an unknown year.

* `Coercion.Names` — which integer a run of digits names.
* `Coercion.partialDate` — the object made of a date, with or without its year.
* `Coercion.toDate_reads` — **the grammar of dates**, and that it reads the decimal texts of any three
  such integers.
-/

namespace EventPayload

/-- An integer of thirty-two bits without sign is one of sixty-four bits. -/
def WideInteger.ofUInt32 (n : UInt32) : WideInteger :=
  ⟨n.toNat, by have := twoPow_pos 63; omega, by
    have hn : n.toNat < 2 ^ 32 := n.toNat_lt
    have hpower : (twoPow 64 : Int) = 2 ^ 64 := rfl
    omega⟩

namespace Coercion

variable {y m d : String} {year month day : UInt32}

/-! ## Parts -/

/-- **A part of a date** is a run of digits, and names the integer they are the digits of. -/
structure Names (digits : String) (n : UInt32) : Prop where
  nonempty : digits ≠ ""
  isDigit : ∀ c ∈ digits.toList, c.isDigit
  value : digitsValue digits.toList = n.toNat

lemma exists_toList_eq (cs : List Char) : ∃ s : String, s.toList = cs :=
  ⟨.ofList cs, String.toList_ofList⟩

lemma narrow?_ofUInt32 (n : UInt32) :
    narrow? (n.toNat : Int) = some (.integer (.ofUInt32 n)) := by
  refine narrow?_value (.ofUInt32 n) (show (n.toNat : Int) < twoPow 63 from ?_)
  have hn : n.toNat < 2 ^ 32 := n.toNat_lt
  have hpower : (twoPow 63 : Int) = 2 ^ 63 := rfl
  omega

lemma Names.dash_not_mem (h : Names y year) : '-' ∉ y.toList := by
  intro hdash
  exact absurd (h.isDigit _ hdash) (by decide)

/-- **The reader of parts reads what they name.** -/
lemma datePart?_eq_some_iff (digits : String) (number : Number) :
    datePart? digits.toList = some number ↔
      ∃ n, Names digits n ∧ number = .integer (.ofUInt32 n) := by
  rw [datePart?]
  constructor
  · intro h
    split at h
    · next hdigits =>
      obtain ⟨hne, hall, hlt⟩ := hdigits
      have hvalue : digitsValue digits.toList = (UInt32.ofNat (digitsValue digits.toList)).toNat :=
        (UInt32.toNat_ofNat_of_lt' hlt).symm
      refine ⟨.ofNat (digitsValue digits.toList), ⟨?_, List.all_eq_true.mp hall, hvalue⟩, ?_⟩
      · exact fun hempty => hne (String.toList_eq_nil_iff.mpr hempty)
      · rw [hvalue, narrow?_ofUInt32] at h
        exact (Option.some.inj h).symm
    · cases h
  · rintro ⟨n, ⟨hne, hall, hvalue⟩, rfl⟩
    rw [hvalue, narrow?_ofUInt32, if_pos]
    exact ⟨fun hnil => hne (String.toList_eq_nil_iff.mp hnil), List.all_eq_true.mpr hall, n.toNat_lt⟩

lemma datePart?_of_names (h : Names y year) :
    datePart? y.toList = some (.integer (.ofUInt32 year)) :=
  (datePart?_eq_some_iff y _).mpr ⟨year, h, rfl⟩

/-- The decimal text of an integer names it. -/
lemma names_toString (n : UInt32) : Names (toString n.toNat) n := by
  have hchars : (toString n.toNat).toList = Nat.toDigits 10 n.toNat := Nat.toList_repr
  constructor
  · intro hempty
    rw [hempty] at hchars
    exact Nat.toDigits_ne_nil hchars.symm
  · rw [hchars]
    exact fun c hc => isDigit_of_mem_toDigits hc
  · rw [hchars, digitsValue_toDigits]

/-- Only a text that is not the decimal text of any integer stands for an unknown year. -/
lemma toString_ne_unknownYear (n : UInt32) : toString n.toNat ≠ "0000" := by
  intro h
  have hzero : n.toNat = 0 := by
    have hvalue := (names_toString n).value
    rw [h] at hvalue
    exact hvalue.symm.trans rfl
  rw [hzero] at h
  exact absurd h (by decide)

/-! ## Dates -/

/-- **The object made of a date.**  An unknown year is left out. -/
def partialDate (y : String) (year month day : UInt32) : Json :=
  let part (n : UInt32) : Json := .num (.integer (.ofUInt32 n))
  .obj ((if y = "0000" then [] else [("year", part year)]) ++
    [("month", part month), ("day", part day)])

/-- A text with two dashes falls apart into what stands between them. -/
lemma splitOn_dash_iff {s : String} :
    s.toList.splitOn '-' = [y.toList, m.toList, d.toList] ↔
      s = y ++ "-" ++ m ++ "-" ++ d ∧ '-' ∉ y.toList ∧ '-' ∉ m.toList ∧ '-' ∉ d.toList := by
  have hjoin : ['-'].intercalate [y.toList, m.toList, d.toList]
      = (y ++ "-" ++ m ++ "-" ++ d).toList := by
    simp [List.intercalate]
  rw [splitOn_eq_iff (List.cons_ne_nil _ _), hjoin, String.toList_inj]
  simp

lemma toDate_of_names (hy : Names y year) (hm : Names m month) (hd : Names d day) :
    toDate (.str (y ++ "-" ++ m ++ "-" ++ d)) = some (partialDate y year month day) := by
  have hsplit := splitOn_dash_iff.mpr ⟨rfl, hy.dash_not_mem, hm.dash_not_mem, hd.dash_not_mem⟩
  have hunknown : y.toList = unknownYear ↔ y = "0000" :=
    (String.toList_inj : y.toList = "0000".toList ↔ y = "0000")
  simp only [toDate, hsplit, datePart?_of_names hy, datePart?_of_names hm, datePart?_of_names hd,
    hunknown, Option.bind_eq_bind, Option.bind_some, partialDate]
  split <;> rfl

lemma exists_names_of_toDate {v w : Json} (h : toDate v = some w) :
    ∃ (y m d : String) (year month day : UInt32), v = .str (y ++ "-" ++ m ++ "-" ++ d) ∧
      Names y year ∧ Names m month ∧ Names d day := by
  cases v with
  | str s =>
    simp only [toDate] at h
    split at h
    · next ys ms ds hsplit =>
      obtain ⟨y, rfl⟩ := exists_toList_eq ys
      obtain ⟨m, rfl⟩ := exists_toList_eq ms
      obtain ⟨d, rfl⟩ := exists_toList_eq ds
      obtain ⟨_, hy, h⟩ := Option.bind_eq_some_iff.mp h
      obtain ⟨_, hm, h⟩ := Option.bind_eq_some_iff.mp h
      obtain ⟨_, hd, -⟩ := Option.bind_eq_some_iff.mp h
      obtain ⟨year, hy, -⟩ := (datePart?_eq_some_iff y _).mp hy
      obtain ⟨month, hm, -⟩ := (datePart?_eq_some_iff m _).mp hm
      obtain ⟨day, hd, -⟩ := (datePart?_eq_some_iff d _).mp hd
      obtain ⟨rfl, -⟩ := splitOn_dash_iff.mp hsplit
      exact ⟨y, m, d, year, month, day, rfl, hy, hm, hd⟩
    · cases h
  | _ => cases h

/-- **The grammar of dates.**  Every text of the grammar is read, nothing else is, and the object has
what the parts name; so the decimal texts of three integers give them back. -/
theorem toDate_reads :
    (∀ v w, toDate v = some w ↔
      ∃ (y m d : String) (year month day : UInt32), v = .str (y ++ "-" ++ m ++ "-" ++ d) ∧
        Names y year ∧ Names m month ∧ Names d day ∧ w = partialDate y year month day) ∧
    ∀ year month day : UInt32,
      toDate (.str (toString year.toNat ++ "-" ++ toString month.toNat ++ "-" ++ toString day.toNat))
        = some (.obj [("year", .num (.integer (.ofUInt32 year))),
            ("month", .num (.integer (.ofUInt32 month))), ("day", .num (.integer (.ofUInt32 day)))]) := by
  refine ⟨fun v w => ⟨fun h => ?_, ?_⟩, fun year month day => ?_⟩
  · obtain ⟨y, m, d, year, month, day, rfl, hy, hm, hd⟩ := exists_names_of_toDate h
    rw [toDate_of_names hy hm hd] at h
    exact ⟨y, m, d, year, month, day, rfl, hy, hm, hd, (Option.some.inj h).symm⟩
  · rintro ⟨y, m, d, year, month, day, rfl, hy, hm, hd, rfl⟩
    exact toDate_of_names hy hm hd
  · rw [toDate_of_names (names_toString year) (names_toString month) (names_toString day),
      partialDate, if_neg (toString_ne_unknownYear year)]
    rfl

example : toDate (.str "0000-12-31") = some (partialDate "0000" 0 12 31) := rfl

end Coercion

end EventPayload
