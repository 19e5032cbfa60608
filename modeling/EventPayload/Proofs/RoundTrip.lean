import EventPayload.Proofs.NumericTexts
import EventPayload.Proofs.ShortestText

/-!
# Numbers come back from their text

The text of a number is read as a number again.  Integers in range and doubles far beyond it come
back; in between, the text of a double may be that of another integer, since it is filled with zeros
where the digits of the double end.

* `Binary64.Padded` — the doubles that this happens to; they lie between `2 ^ 53` and `2 ^ 63`.
* `Number.Displaced` — the numbers that do not come back: padded doubles, and integers out of range
  that no double is equal to.
* `Coercion.toNumber_toText` — **all others come back** with their value; and the double is still
  the nearest to what its padded text is read as.
-/

namespace EventPayload

namespace Binary64

/-- **Written with other digits.**  The zeros that fill the text of a double up to the point are not
its own digits, and they make it the text of another integer. -/
def Padded (x : Binary64) : Prop :=
  ∃ n : ℕ, (x.shortest .up).value = n ∧ (n : ℚ) ≠ |x.value| ∧ |x.value| < twoPow 63

/-- The double `2 ^ 63`, or its opposite. -/
def limit (negative : Bool) : Binary64 :=
  ⟨negative, 1086 * twoPow 52, by decide⟩

lemma abs_value_limit (negative : Bool) : |(limit negative).value| = (twoPow 63 : ℕ) :=
  abs_value_power (n := 63) rfl

/-- The text of the limit is that of an integer beyond it. -/
lemma shortest_limit (negative : Bool) :
    (limit negative).shortest .up = ⟨"9223372036854776".toList, 18⟩ := by
  cases negative <;> decide +kernel

lemma value_shortest_limit (negative : Bool) :
    ((limit negative).shortest .up).value = 9223372036854776000 := by
  have hdigits : digitsValue "9223372036854776".toList = 9223372036854776 := by decide
  have hlength : "9223372036854776".toList.length = 16 := by decide
  rw [shortest_limit, Digits.value, hdigits, hlength]
  norm_num

variable {x : Binary64}

lemma eq_limit (h : |x.value| = (twoPow 63 : ℕ)) : x = limit x.negative := by
  have hcode : x.code = (limit x.negative).code := by
    refine le_antisymm ?_ ?_ <;> rw [← abs_value_le_iff, h, abs_value_limit]
  obtain ⟨negative, code, hlt⟩ := x
  obtain rfl : code = 1086 * twoPow 52 := hcode
  rfl

lemma value_shortest_nonneg (x : Binary64) : 0 ≤ (x.shortest .up).value := by
  rw [Digits.value]
  positivity

/-- The digits of a double below the limit are in range. -/
lemma shortest_lt_of_abs_value (h : |x.value| < (twoPow 63 : ℕ)) :
    (x.shortest .up).value < (twoPow 63 : ℕ) := by
  by_contra hge
  rw [← abs_value_limit x.negative] at h hge
  have hle := abs_le_of_round? x.value_shortest_nonneg (round?_shortest .up x) (not_lt.mp hge)
  exact h.not_ge hle

/-- Digits in range are those of a double below the limit. -/
lemma abs_value_lt_of_shortest (h : (x.shortest .up).value ≤ (twoPow 63 : ℕ)) :
    |x.value| < (twoPow 63 : ℕ) := by
  have hle : |x.value| ≤ (twoPow 63 : ℕ) := by
    rw [← abs_value_limit x.negative] at h ⊢
    exact round?_le_abs x.value_shortest_nonneg (round?_shortest .up x) h
  refine lt_of_le_of_ne hle fun heq => ?_
  rw [eq_limit heq, value_shortest_limit] at h
  have hlimit : ((twoPow 63 : ℕ) : ℚ) = 9223372036854775808 := rfl
  rw [hlimit] at h
  norm_num at h

lemma value_of_code_eq_zero (h : x.code = 0) : x.value = 0 := by
  rw [← abs_eq_zero, abs_value, eq_zero_of_code h, units_zero, Nat.cast_zero, zero_div]

/-- The text of a double lies on the same side of zero. -/
lemma abs_value_numeral_sub (x : Binary64) :
    |x.numeral.value - x.value| = |(x.shortest .up).value - (|x.value| : ℚ)| := by
  have hvalue := x.value_eq_abs
  have hnumeral : x.numeral.value
      = if x.numeral.sign = .minus then -x.numeral.magnitude else x.numeral.magnitude := rfl
  rw [← magnitude_numeral]
  by_cases hzero : x.code = 0
  · rw [value_of_code_eq_zero hzero, abs_zero, sub_zero, sub_zero, Numeral.abs_value,
      abs_of_nonneg x.numeral.magnitude_nonneg]
  · rw [← sign_numeral hzero] at hvalue
    by_cases hsign : x.numeral.sign = .minus
    · rw [decide_eq_true hsign, if_pos rfl] at hvalue
      rw [if_pos hsign] at hnumeral
      have hsub : x.numeral.value - x.value = -(x.numeral.magnitude - |x.value|) := by linarith
      rw [hsub, abs_neg]
    · rw [decide_eq_false hsign, if_neg Bool.false_ne_true] at hvalue
      rw [if_neg hsign] at hnumeral
      rw [hnumeral, ← hvalue]

/-- If the digits are exact, so is the text. -/
lemma value_numeral_of_exact (h : (x.shortest .up).value = |x.value|) :
    x.numeral.value = x.value := by
  rw [← sub_eq_zero, ← abs_eq_zero, abs_value_numeral_sub, h, sub_self, abs_zero]

/-- **A padded double** lies from `2 ^ 53` on, where the doubles are farther apart than the
integers. -/
lemma Padded.le_abs_value (h : x.Padded) : ((twoPow 53 : ℕ) : ℚ) ≤ |x.value| := by
  obtain ⟨n, hn, hne, -⟩ := h
  have hround := round?_shortest .up x
  rw [hn] at hround
  rcases Nat.le_total n (2 ^ 53) with hle | hge
  · -- such an integer is a double, so it would be the one that it is rounded to
    obtain ⟨y, hnegative, hy⟩ := exists_value_eq x.negative hle (Nat.zero_le 970)
    rw [twoPow_zero, Nat.mul_one] at hy
    rw [← hy, ← hnegative, round?_abs_value] at hround
    rw [← Option.some.inj hround] at hne
    exact absurd hy.symm hne
  · obtain ⟨y, -, hy⟩ := exists_value_eq x.negative (le_refl (2 ^ 53)) (Nat.zero_le 970)
    rw [twoPow_zero, Nat.mul_one] at hy
    rw [twoPow_eq, ← hy]
    refine abs_le_of_round? (Nat.cast_nonneg n) hround ?_
    rw [hy]
    exact_mod_cast hge

/-- The double `2 ^ 62`, which has more digits than it needs. -/
def paddedPower : Binary64 :=
  ⟨false, 1085 * twoPow 52, by decide⟩

lemma abs_value_paddedPower : |paddedPower.value| = 4611686018427387904 :=
  abs_value_power (n := 62) rfl

lemma paddedPower_padded : paddedPower.Padded := by
  have hshortest : paddedPower.shortest .up = ⟨"4611686018427388".toList, 18⟩ := by decide +kernel
  have hdigits : digitsValue "4611686018427388".toList = 4611686018427388 := by decide
  have hlength : "4611686018427388".toList.length = 16 := by decide
  have hlimit : ((twoPow 63 : ℕ) : ℚ) = 9223372036854775808 := rfl
  rw [Padded, hshortest, Digits.value, hdigits, hlength, abs_value_paddedPower, hlimit]
  exact ⟨4611686018427388000, by norm_num, by norm_num, by norm_num⟩

end Binary64

/-- **Numbers whose text names another number**: integers beyond the range that no double is equal
to, and padded doubles. -/
def Number.Displaced : Number → Prop
  | integer n => ¬ Narrow n.value ∧ ∀ x : Binary64, x.value ≠ n.value
  | double x => x.Padded

namespace Coercion

open Binary64 (limit paddedPower)

/-- The text of an integer is read as a number of the same value, if there is one. -/
lemma toNumber_integerText (n : WideInteger) (h : ¬ (Number.integer n).Displaced) :
    ∃ m, toNumber (.str (String.ofList (Number.integerChars n.value))) = some (.num m) ∧
      m.value = n.value := by
  have hspells := (integerNumeral_spells n.value).trimmed
  have hvalue := value_integerNumeral n.value
  rcases read_cases hspells (integerNumeral_isLoose n.value) with
    ⟨w, -, hw, -, -, hnumber⟩ | ⟨hwide, -, hnumber⟩
  · exact ⟨.integer w, hnumber, hw.symm.trans hvalue⟩
  · have hdouble : ∃ x : Binary64, x.value = n.value := by
      by_contra hnone
      exact h ⟨hwide rfl n.value hvalue, not_exists.mp hnone⟩
    obtain ⟨x, hx⟩ := hdouble
    have hne : x.value ≠ 0 := by
      rw [hx]
      rintro hzero
      refine hwide rfl 0 ?_ ⟨by decide, by decide⟩
      rw [hvalue, hzero, Int.cast_zero]
    rw [Numeral.round?_of_value (hx.trans hvalue.symm) hne] at hnumber
    exact ⟨.double x, hnumber, hx⟩

/-- The text of a double is read as the integer that it spells, if that is in range, and otherwise
as the double. -/
lemma toNumber_doubleText (x : Binary64) :
    (∃ w : WideInteger, x.numeral.isInteger ∧ x.numeral.value = w.value ∧ w.value < twoPow 63 ∧
      toNumber (.str (String.ofList (Layout.plain.write x))) = some (.num (.integer w))) ∨
    ((x.numeral.isInteger → ∀ n : ℤ, x.numeral.value = n → ¬ Narrow n) ∧
      toNumber (.str (String.ofList (Layout.plain.write x))) = some (.num (.double x))) := by
  rcases read_cases x.plain_write_spells.trimmed x.numeral_isLoose with
    ⟨w, hinteger, hw, hlt, -, hnumber⟩ | ⟨hwide, -, hnumber⟩
  · exact .inl ⟨w, hinteger, hw, hlt, hnumber⟩
  · have hne : x.code ≠ 0 := by
      intro hzero
      have hnumeral : x.numeral = integerNumeral 0 := by
        rw [Binary64.numeral, if_pos hzero]
        decide
      rw [hnumeral] at hwide
      exact hwide rfl 0 (value_integerNumeral 0) ⟨by decide, by decide⟩
    rw [Binary64.round?_numeral hne] at hnumber
    exact .inr ⟨hwide, hnumber⟩

/-- Unless the double is padded, its text is read as a number of the same value. -/
lemma toNumber_doubleText_value (x : Binary64) (h : ¬ x.Padded) :
    ∃ m, toNumber (.str (String.ofList (Layout.plain.write x))) = some (.num m) ∧
      m.value = x.value := by
  rcases toNumber_doubleText x with ⟨w, -, hw, hlt, hnumber⟩ | ⟨-, hnumber⟩
  · refine ⟨.integer w, hnumber, hw.symm.trans (Binary64.value_numeral_of_exact ?_)⟩
    have hdigits : (x.shortest .up).value = (w.value.natAbs : ℕ) := by
      rw [← x.magnitude_numeral, ← Numeral.abs_value, hw, Nat.cast_natAbs, Int.cast_abs]
    by_contra hne
    refine h ⟨w.value.natAbs, hdigits, hdigits ▸ hne, Binary64.abs_value_lt_of_shortest ?_⟩
    have hlower := w.lower
    rw [hdigits, Nat.cast_le]
    omega
  · exact ⟨.double x, hnumber, rfl⟩

/-- The text of a padded double is read as another integer, to which the double is the nearest. -/
lemma toNumber_doubleText_of_padded {x : Binary64} (h : x.Padded) :
    ∃ w : WideInteger,
      toNumber (.str (String.ofList (Layout.plain.write x))) = some (.num (.integer w)) ∧
      |(w.value : ℚ)| = (x.shortest .up).value ∧ (w.value : ℚ) ≠ x.value ∧
      ∀ y : Binary64, |(w.value : ℚ) - x.value| ≤ |(w.value : ℚ) - y.value| := by
  obtain ⟨n, hn, hne, hlt⟩ := h
  have hmagnitude : |x.numeral.value| = n := by rw [Numeral.abs_value, x.magnitude_numeral, hn]
  rcases toNumber_doubleText x with ⟨w, -, hw, -, hnumber⟩ | ⟨hwide, -⟩
  · rw [hw] at hmagnitude
    refine ⟨w, hnumber, hmagnitude.trans hn.symm, ?_, ?_⟩
    · intro hsame
      rw [hsame] at hmagnitude
      exact hne hmagnitude.symm
    · intro y
      have hnearest := Binary64.nearest_of_round? x.value_shortest_nonneg
        (Binary64.round?_shortest .up x) y
      rw [← Binary64.abs_value_numeral_sub, hw, hn, ← hmagnitude] at hnearest
      exact hnearest.trans (abs_abs_sub_abs_le _ _)
  · -- a padded text is an integer, and in range as the double is
    have hinteger := Binary64.isInteger_numeral hn
    have hvalue := Numeral.value_of_isInteger hinteger
    refine absurd ?_ (hwide hinteger _ hvalue)
    have hsize : |x.numeral.sign.apply (digitsValue x.numeral.whole)| = n := by
      rw [hvalue] at hmagnitude
      exact_mod_cast hmagnitude
    have hbelow := Binary64.shortest_lt_of_abs_value hlt
    rw [hn, Nat.cast_lt] at hbelow
    obtain ⟨hlower, hupper⟩ := abs_le.mp hsize.le
    exact ⟨by omega, by omega⟩

/-- **Numbers come back from their text.** -/
theorem toNumber_toText (n : Number) :
    ∃ s, toText (.num n) = some (.str s) ∧
      (¬ n.Displaced → ∃ m, toNumber (.str s) = some (.num m) ∧ m.value = n.value) ∧
      ∀ x, n = .double x → x.Padded →
        (twoPow 53 : ℚ) ≤ |x.value| ∧ ∃ w : WideInteger,
          toNumber (.str s) = some (.num (.integer w)) ∧ |(w.value : ℚ)| = (x.shortest .up).value ∧
          (w.value : ℚ) ≠ x.value ∧
          ∀ y : Binary64, |(w.value : ℚ) - x.value| ≤ |(w.value : ℚ) - y.value| := by
  cases n with
  | integer n => exact ⟨_, rfl, toNumber_integerText n, fun x hx => nomatch hx⟩
  | double x =>
    refine ⟨_, rfl, toNumber_doubleText_value x, ?_⟩
    rintro y hy hpadded
    obtain rfl := Number.double.inj hy
    exact ⟨hpadded.le_abs_value, toNumber_doubleText_of_padded hpadded⟩

theorem limit_readBack :
    (¬ (Number.double (limit false)).Displaced ∧
      ∃ s m, toText (.num (.double (limit false))) = some (.str s) ∧
        toNumber (.str s) = some (.num m) ∧ m.value = (limit false).value) ∧
    paddedPower.Padded ∧ (twoPow 53 : ℚ) ≤ |paddedPower.value| := by
  have hlimit : ¬ (Number.double (limit false)).Displaced :=
    fun ⟨_, _, _, hlt⟩ => hlt.ne (Binary64.abs_value_limit false)
  obtain ⟨s, htext, hread, -⟩ := toNumber_toText (.double (limit false))
  obtain ⟨m, hm, hvalue⟩ := hread hlimit
  obtain ⟨_, -, -, hpadded⟩ := toNumber_toText (.double paddedPower)
  exact ⟨⟨hlimit, s, m, htext, hm, hvalue⟩, Binary64.paddedPower_padded,
    (hpadded paddedPower rfl Binary64.paddedPower_padded).1⟩

/-- The double `2 ^ 62` does not come back from its text: the last three digits are filled up. -/
theorem paddedPower_not_readBack :
    toText (.num (.double paddedPower)) = some (.str "4611686018427388000") ∧
      ∃ w : WideInteger, toNumber (.str "4611686018427388000") = some (.num (.integer w)) ∧
        paddedPower.value = 4611686018427387904 ∧ (w.value : ℚ) = 4611686018427388000 ∧
        (Number.integer w).value ≠ (Number.double paddedPower).value := by
  have hvalue : paddedPower.value = 4611686018427387904 := by
    rw [Binary64.value_eq_abs, Binary64.abs_value_paddedPower]
    rfl
  refine ⟨by decide +kernel, ⟨4611686018427388000, by decide, by decide⟩, by decide +kernel, hvalue,
    Int.cast_ofNat _, ?_⟩
  rw [Number.value, Number.value, hvalue, Int.cast_ofNat]
  norm_num

end Coercion

end EventPayload
