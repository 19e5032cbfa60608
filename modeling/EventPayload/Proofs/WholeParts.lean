import EventPayload.Coercion
import EventPayload.Proofs.Doubles

/-!
# Whole parts of doubles

A double loses its fraction by clearing bits, is compared with two other doubles, and is only then
converted to an integer.  This file follows these steps on the number line.

* `Binary64.lt_iff_value_lt`, `Binary64.le_iff_value_le` — **the order of the doubles is that of their
  values**.
* `Binary64.units_wholePart` — clearing the bits behind the point leaves whole ones; hence
  `Binary64.value_wholePart`, **the whole part is the integer part of the value**.
* `Binary64.value_leastNarrow`, `Binary64.value_greatestNarrow` — the ends of the range as doubles.
* `Coercion.truncated?_finite` — the steps together: the integer part, if it is in range.
-/

namespace EventPayload

namespace Binary64

/-! ## Order -/

lemma units_lt_iff (x y : Binary64) : x.units < y.units ↔ x.code < y.code := by
  rw [units_eq_codeUnits, units_eq_codeUnits, codeUnits_strictMono.lt_iff_lt]

lemma units_eq_zero_iff (x : Binary64) : x.units = 0 ↔ x.code = 0 := by
  have hsame : codeUnits x.code = codeUnits 0 ↔ x.code = 0 := codeUnits_strictMono.injective.eq_iff
  rwa [codeUnits_zero] at hsame

/-- Codes and units are in the same order, signs included. -/
lemma signed_code_lt_iff (x y : Binary64) :
    x.signed x.code < y.signed y.code ↔ x.signed x.units < y.signed y.units := by
  have hlt := units_lt_iff x y
  have hgt := units_lt_iff y x
  have hzero := units_eq_zero_iff x
  have hzero' := units_eq_zero_iff y
  simp only [signed]
  split <;> split <;> omega

lemma value_lt_iff (x y : Binary64) :
    x.value < y.value ↔ x.signed x.units < y.signed y.units := by
  rw [value, value, div_lt_div_iff_of_pos_right one_pos, Int.cast_lt]

/-- **The order of the doubles is that of their values.** -/
theorem lt_iff_value_lt (x y : Binary64) : x < y ↔ x.value < y.value := by
  rw [value_lt_iff, ← signed_code_lt_iff]
  rfl

theorem le_iff_value_le (x y : Binary64) : x ≤ y ↔ x.value ≤ y.value := by
  rw [← not_lt, value_lt_iff, ← signed_code_lt_iff, not_lt]
  rfl

/-! ## The whole part -/

section Clearing

variable {mantissa scale places : Nat}

lemma twoPow_dvd (h : places ≤ 52) : twoPow places ∣ 2 ^ 52 :=
  Nat.pow_dvd_pow 2 h

/-- The cleared bits are bits of the mantissa, since the scale is a multiple of `2 ^ 52`. -/
lemma code_clear (h : places ≤ 52) :
    scale * 2 ^ 52 + mantissa - (scale * 2 ^ 52 + mantissa) % twoPow places
      = scale * 2 ^ 52 + (mantissa - mantissa % twoPow places) := by
  obtain ⟨k, hk⟩ := (twoPow_dvd h).mul_left scale
  have hle := Nat.mod_le mantissa (twoPow places)
  rw [hk, Nat.mul_add_mod]
  omega

/-- The highest bit stays where it is. -/
lemma Normal.clear (h : Normal mantissa scale) (hscale : scale ≠ 0) (hplaces : places ≤ 52) :
    Normal (mantissa - mantissa % twoPow places) scale := by
  refine ⟨(Nat.sub_le ..).trans h.le, .inr ?_⟩
  obtain ⟨k, hk⟩ := twoPow_dvd hplaces
  have hquotient : k ≤ mantissa / twoPow places := by
    rw [Nat.le_div_iff_mul_le (twoPow_pos places), Nat.mul_comm, ← hk]
    exact h.highest.resolve_left hscale
  rw [← Nat.div_mul_self_eq_mod_sub_self, hk, Nat.mul_comm]
  exact Nat.mul_le_mul_right _ hquotient

/-- What a cleared mantissa is worth: the whole ones, and no more. -/
lemma units_clear (mantissa scale : Nat) :
    (mantissa - mantissa % twoPow (1074 - scale)) * twoPow scale
      = mantissa * twoPow scale / one * one := by
  rcases Nat.le_total 1074 scale with hle | hle
  · -- there is no bit behind the point
    obtain ⟨k, rfl⟩ := Nat.exists_eq_add_of_le hle
    have hdvd : one ∣ mantissa * twoPow (1074 + k) := by
      rw [twoPow_add]
      exact (Nat.dvd_mul_right one _).mul_left mantissa
    rw [Nat.sub_eq_zero_of_le hle, twoPow_zero, Nat.mod_one, Nat.sub_zero,
      Nat.div_mul_cancel hdvd]
  · have hone : one = twoPow (1074 - scale) * twoPow scale := by
      rw [← twoPow_add, Nat.sub_add_cancel hle, one]
    rw [hone, Nat.mul_div_mul_right _ _ (twoPow_pos scale), ← Nat.mul_assoc,
      Nat.div_mul_self_eq_mod_sub_self]

end Clearing

/-- **Clearing the bits behind the point** leaves whole ones. -/
theorem units_wholePart (x : Binary64) : x.wholePart.units = x.units / one * one := by
  obtain ⟨scale, mantissa, hcode, hmantissa, hnormal⟩ := code_cases x.code
  have hscale : x.scale = scale := by
    show codeScale x.code = scale
    rw [hcode, codeScale_of_normal hnormal hmantissa]
  have hunits : x.units = mantissa * twoPow scale := by
    rw [units_eq_codeUnits, hcode, codeUnits_of_normal hnormal]
  simp only [wholePart, hscale]
  split
  · -- the whole mantissa lies behind the point
    next hplaces =>
    have hsmall : x.units < one :=
      hunits ▸ (units_lt hmantissa scale).trans_le (twoPow_le (by omega))
    rw [units_zero, Nat.div_eq_of_lt hsmall, Nat.zero_mul]
  · next hplaces =>
    rw [not_lt] at hplaces
    have hclear : Normal (mantissa - mantissa % twoPow (1074 - scale)) scale :=
      hnormal.clear (by omega) hplaces
    show codeUnits (x.code - x.code % twoPow (1074 - scale)) = _
    rw [hcode, code_clear hplaces, codeUnits_of_normal hclear, units_clear, hunits]

lemma negative_wholePart (x : Binary64) : x.wholePart.negative = x.negative := by
  simp only [wholePart]
  split <;> rfl

/-- **The whole part of a double** is the integer part of its value. -/
theorem value_wholePart (x : Binary64) : x.wholePart.value = towardsZero x.value := by
  have hunits : ((x.wholePart.units : ℕ) : ℚ) = (x.units / one : ℕ) * one := by
    rw [units_wholePart, Nat.cast_mul]
  rw [← x.truncate_eq_towardsZero, value, truncate, signed, signed, negative_wholePart]
  split
  · rw [Int.cast_neg, Int.cast_neg, Int.cast_natCast, Int.cast_natCast, hunits, neg_div,
      mul_div_cancel_right₀ _ one_pos.ne']
  · rw [Int.cast_natCast, Int.cast_natCast, hunits, mul_div_cancel_right₀ _ one_pos.ne']

/-! ## The ends of the range -/

lemma value_leastNarrow : leastNarrow.value = -(twoPow 63 : ℕ) := by
  have hcode : leastNarrow.code = (63 + 1023) * 2 ^ 52 := by decide +kernel
  rw [value_eq_abs, abs_value_power hcode]
  rfl

/-- **The upper end is out of range** as a double: it is rounded up. -/
lemma value_greatestNarrow : greatestNarrow.value = (twoPow 63 : ℕ) := by
  have hcode : greatestNarrow.code = (63 + 1023) * 2 ^ 52 := by decide +kernel
  rw [value_eq_abs, abs_value_power hcode]
  rfl

end Binary64

/-! ## Truncation -/

namespace Coercion

open Binary64

/-- **The comparisons are those of the integers**, although the upper end is not one of them as a
double. -/
lemma inside_iff (x : Binary64) :
    ¬ (x.wholePart < leastNarrow ∨ greatestNarrow ≤ x.wholePart) ↔
      -(twoPow 63 : ℤ) ≤ x.truncate ∧ x.truncate < twoPow 63 := by
  have hlower : x.wholePart < leastNarrow ↔ x.truncate < -(twoPow 63 : ℤ) := by
    rw [lt_iff_value_lt, value_wholePart, value_leastNarrow, ← x.truncate_eq_towardsZero]
    exact_mod_cast Iff.rfl
  have hupper : greatestNarrow ≤ x.wholePart ↔ (twoPow 63 : ℤ) ≤ x.truncate := by
    rw [le_iff_value_le, value_wholePart, value_greatestNarrow, ← x.truncate_eq_towardsZero]
    exact_mod_cast Iff.rfl
  rw [hlower, hupper, not_or, not_lt, not_le]

/-- What passes the comparisons is not moved by the conversion. -/
lemma toNarrow_wholePart {x : Binary64}
    (h : ¬ (x.wholePart < leastNarrow ∨ greatestNarrow ≤ x.wholePart)) :
    x.wholePart.toNarrow = x.truncate := by
  obtain ⟨hlower, hupper⟩ := (inside_iff x).mp h
  have htruncate : x.wholePart.truncate = x.truncate := by
    rw [truncate_eq_towardsZero, value_wholePart, towardsZero_intCast, truncate_eq_towardsZero]
  rw [toNarrow, htruncate]
  omega

/-- **The steps together**: the integer part of a double, if it is in range. -/
theorem truncated?_finite (x : Binary64) : truncated? (.finite x) = narrow? x.truncate := by
  simp only [truncated?]
  by_cases hinside : ¬ (x.wholePart < leastNarrow ∨ greatestNarrow ≤ x.wholePart)
  · rw [if_neg hinside, narrow?, dif_pos ((inside_iff x).mp hinside)]
    simp only [WideInteger.ofDouble, toNarrow_wholePart hinside]
  · rw [narrow?, dif_neg fun hrange => hinside ((inside_iff x).mpr hrange), if_pos (not_not.mp hinside)]

end Coercion

end EventPayload
