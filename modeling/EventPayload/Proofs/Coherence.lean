import EventPayload.Proofs.IntegerRange
import EventPayload.Proofs.Kinds

/-!
# The numeric coercions among themselves

An integer can be made of a double, of a text, or of the number that a text was read as first.  This
file says what becomes of a double, and that the ways lead to the same place.

* `Coercion.toInteger_double_exact` — **doubles are truncated exactly, at every magnitude**, and what
  is converted in the end is never moved to an end of the range.
* `Coercion.truncated?_eq_bind` — a datum is truncated at once, or as the number that it is.  One that
  is not finite is refused either way.
* `Coercion.coercions_coherent` — **an integer can be made in one step or in two**, and what a
  coercion has made it makes again.
-/

namespace EventPayload.Coercion

open Binary64 (leastNarrow greatestNarrow)

/-! ## Doubles -/

/-- **Doubles are truncated exactly.**  What comes out is the integer part of the value if that is
an integer of sixty-four bits with sign, and nothing otherwise; a whole part that passes the
comparisons is converted to the integer that it is. -/
theorem toInteger_double_exact (x : Binary64) :
    (∀ w, toInteger (.num (.double x)) = some w ↔
      ∃ n : WideInteger, w = .num (.integer n) ∧ n.value = towardsZero x.value ∧
        Narrow (towardsZero x.value)) ∧
    (toInteger (.num (.double x)) = none ↔ ¬ Narrow (towardsZero x.value)) ∧
    (¬ (x.wholePart < leastNarrow ∨ greatestNarrow ≤ x.wholePart) →
      ((WideInteger.ofDouble x.wholePart).value : ℚ) = x.wholePart.value) := by
  refine ⟨fun w => ?_, ?_, fun hinside => ?_⟩
  · rw [toInteger_double]
    rcases narrow?_cases (towardsZero x.value) with ⟨n, hn, hnarrow, hsome⟩ | ⟨hwide, hnone⟩
    · rw [hsome, Option.map_some, Option.some.injEq]
      constructor
      · rintro rfl
        exact ⟨n, rfl, hn, hnarrow⟩
      · rintro ⟨m, rfl, hm, -⟩
        rw [WideInteger.eq_of_value (hn.trans hm.symm)]
    · rw [hnone, Option.map_none]
      exact ⟨fun h => (nomatch h), fun ⟨_, _, _, hnarrow⟩ => absurd hnarrow hwide⟩
  · rw [toInteger_double, Option.map_eq_none_iff]
    rcases narrow?_cases (towardsZero x.value) with ⟨n, -, hnarrow, hsome⟩ | ⟨hwide, hnone⟩
    · rw [hsome]
      exact ⟨fun h => (nomatch h), fun hwide => absurd hnarrow hwide⟩
    · exact ⟨fun _ => hwide, fun _ => hnone⟩
  · have hvalue : (WideInteger.ofDouble x.wholePart).value = x.truncate := toNarrow_wholePart hinside
    rw [hvalue, x.truncate_eq_towardsZero, x.value_wholePart]

/-- The greatest double below `2 ^ 63`. -/
def belowLimit : Binary64 :=
  ⟨false, 1086 * twoPow 52 - 1, by decide⟩

/-- It passes the comparisons, and is converted to the integer that it is. -/
theorem belowLimit_converted :
    ¬ (belowLimit.wholePart < leastNarrow ∨ greatestNarrow ≤ belowLimit.wholePart) ∧
      (WideInteger.ofDouble belowLimit.wholePart).value = 9223372036854774784 ∧
      ((WideInteger.ofDouble belowLimit.wholePart).value : ℚ) = belowLimit.wholePart.value := by
  have hinside : ¬ (belowLimit.wholePart < leastNarrow ∨ greatestNarrow ≤ belowLimit.wholePart) := by
    decide +kernel
  exact ⟨hinside, by decide +kernel, (toInteger_double_exact belowLimit).2.2 hinside⟩

/-! ## One step or two -/

/-- A datum is truncated at once, or as the number that it is. -/
lemma truncated?_eq_bind (d : Datum) :
    (truncated? d).map Json.num = ((finite? d).map Json.num).bind toInteger := by
  cases d with
  | finite x => rw [finite?, Option.map_some, Option.bind_some, toInteger]
  | _ => rfl

lemma toInteger_exactInteger? {cs : List Char} {n : Number} (h : exactInteger? cs = some n) :
    toInteger (.num n) = some (.num n) := by
  obtain ⟨value, -, hvalue⟩ := Option.bind_eq_some_iff.mp h
  obtain ⟨w, rfl, -⟩ := exists_integer_of_narrow? hvalue
  rfl

/-- **The coercions are coherent.** -/
theorem coercions_coherent (v : Json) :
    toInteger v = (toNumber v).bind toInteger ∧
    (toText v).bind toText = toText v ∧
    (toInteger v).bind toInteger = toInteger v ∧
    (toNumber v).bind toNumber = toNumber v := by
  refine ⟨?_, ?_, ?_, ?_⟩
  · cases v with
    | num n => rfl
    | str s =>
      simp only [toInteger, toNumber]
      cases hexact : exactInteger? (Text.trimChars s.toList) with
      | none =>
        cases Datum.read? (Text.trimChars s.toList) with
        | none => rfl
        | some d => exact truncated?_eq_bind d
      | some n => exact (toInteger_exactInteger? hexact).symm
    | _ => rfl
  · cases v <;> rfl
  · cases h : toInteger v with
    | none => rfl
    | some w =>
      obtain ⟨n, rfl, -⟩ := exists_integer_of_toInteger h
      rfl
  · cases h : toNumber v with
    | none => rfl
    | some w =>
      obtain ⟨n, rfl⟩ := exists_num_of_toNumber h
      rfl

end EventPayload.Coercion
