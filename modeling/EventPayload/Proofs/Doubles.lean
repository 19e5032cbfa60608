import EventPayload.Number.Binary64
import Mathlib.Data.Rat.Floor
import Mathlib.Tactic.Linarith

/-!
# The doubles on the number line

A code stands for a whole number of units, and a double for that many units with a sign.  This file
says which numbers of units there are, and ties the doubles to the rationals.

* `Binary64.codeUnits` — the units of a code; `code_cases` takes a code apart into a mantissa and
  its weight, and `codeUnits_of_normal` puts it together again.
* `Binary64.codeUnits_strictMono` — **the codes are in the order of their magnitudes**.
* `Binary64.exists_codeUnits` — what fits into fifty-three bits, at any weight, is a code's number
  of units; so every integer up to `2 ^ 53` is a double (`exists_value_eq`).
* `Binary64.value` — the exact value of a double, and `towardsZero` its integer part
  (`truncate_eq_towardsZero`).
-/

namespace EventPayload

/-! ## Powers -/

lemma twoPow_eq (n : Nat) : twoPow n = 2 ^ n := rfl

lemma twoPow_add (m n : Nat) : twoPow (m + n) = twoPow m * twoPow n :=
  Nat.pow_add 2 m n

lemma twoPow_le {m n : Nat} (h : m ≤ n) : twoPow m ≤ twoPow n :=
  Nat.pow_le_pow_right (by decide) h

lemma twoPow_lt {m n : Nat} (h : m < n) : twoPow m < twoPow n :=
  Nat.pow_lt_pow_right (by decide) h

namespace Binary64

/-! ## Codes -/

def codeScale (code : Nat) : Nat :=
  code / 2 ^ 52 - 1

/-- The units that a code stands for. -/
def codeUnits (code : Nat) : Nat :=
  (code - codeScale code * 2 ^ 52) * twoPow (codeScale code)

lemma units_eq_codeUnits (x : Binary64) : x.units = codeUnits x.code := rfl

lemma codeUnits_zero : codeUnits 0 = 0 := by
  rw [codeUnits, Nat.zero_sub, Nat.zero_mul]

/-- **Mantissa and weight of a code.**  The mantissa has its highest bit set unless the weight is
the least one.  `2 ^ 53` is allowed: it is what a rounded-up mantissa comes to. -/
structure Normal (mantissa scale : Nat) : Prop where
  le : mantissa ≤ 2 ^ 53
  highest : scale = 0 ∨ 2 ^ 52 ≤ mantissa

lemma codeScale_of_normal {mantissa scale : Nat} (h : Normal mantissa scale)
    (hlt : mantissa < 2 ^ 53) : codeScale (scale * 2 ^ 52 + mantissa) = scale := by
  have hhighest := h.highest
  rw [codeScale]
  omega

lemma codeUnits_of_normal {mantissa scale : Nat} (h : Normal mantissa scale) :
    codeUnits (scale * 2 ^ 52 + mantissa) = mantissa * twoPow scale := by
  rcases Nat.eq_or_lt_of_le h.le with rfl | hlt
  · -- the mantissa carries over into the next weight
    have hscale : codeScale (scale * 2 ^ 52 + 2 ^ 53) = scale + 1 := by
      rw [codeScale]
      omega
    have hmantissa : scale * 2 ^ 52 + 2 ^ 53 - (scale + 1) * 2 ^ 52 = 2 ^ 52 := by omega
    rw [codeUnits, hscale, hmantissa, twoPow_succ]
    omega
  · rw [codeUnits, codeScale_of_normal h hlt, Nat.add_sub_cancel_left]

lemma code_cases (code : Nat) :
    ∃ scale mantissa, code = scale * 2 ^ 52 + mantissa ∧ mantissa < 2 ^ 53 ∧
      Normal mantissa scale := by
  refine ⟨codeScale code, code - codeScale code * 2 ^ 52, ?_, ?_, ?_, ?_⟩ <;>
    simp only [codeScale] <;> omega

lemma units_lt {mantissa : Nat} (h : mantissa < 2 ^ 53) (scale : Nat) :
    mantissa * twoPow scale < twoPow (53 + scale) := by
  rw [twoPow_add]
  exact Nat.mul_lt_mul_of_pos_right h (twoPow_pos scale)

/-- Above the least weight, the units of a code reach the highest bit. -/
lemma Normal.le_units {mantissa scale : Nat} (h : Normal mantissa scale) (hscale : scale ≠ 0) :
    twoPow (52 + scale) ≤ mantissa * twoPow scale := by
  rw [twoPow_add]
  exact Nat.mul_le_mul_right _ (h.highest.resolve_left hscale)

/-- **The codes are in the order of their magnitudes.** -/
theorem codeUnits_strictMono : StrictMono codeUnits := by
  intro a b hab
  obtain ⟨s, m, rfl, hm, hnormal⟩ := code_cases a
  obtain ⟨t, n, rfl, hn, hnormal'⟩ := code_cases b
  rw [codeUnits_of_normal hnormal, codeUnits_of_normal hnormal']
  have hle : s ≤ t := by
    have hhighest := hnormal.highest
    omega
  rcases Nat.eq_or_lt_of_le hle with rfl | hlt
  · exact Nat.mul_lt_mul_of_pos_right (by omega) (twoPow_pos s)
  · calc m * twoPow s < twoPow (53 + s) := units_lt hm s
      _ ≤ twoPow (52 + t) := twoPow_le (by omega)
      _ ≤ n * twoPow t := hnormal'.le_units (by omega)

lemma codeUnits_double (code : Nat) : ∃ other, codeUnits other = codeUnits code * 2 := by
  obtain ⟨s, m, rfl, hm, hnormal⟩ := code_cases code
  rw [codeUnits_of_normal hnormal]
  by_cases hsmall : m < 2 ^ 52
  · obtain rfl : s = 0 := hnormal.highest.resolve_right (by omega)
    refine ⟨0 * 2 ^ 52 + m * 2, ?_⟩
    rw [codeUnits_of_normal ⟨by omega, .inl rfl⟩, Nat.mul_right_comm]
  · refine ⟨(s + 1) * 2 ^ 52 + m, ?_⟩
    rw [codeUnits_of_normal ⟨hnormal.le, .inr (by omega)⟩, twoPow_succ, Nat.mul_assoc]

/-- **What fits into fifty-three bits** is, at any weight, the number of units of a code. -/
theorem exists_codeUnits {mantissa : Nat} (h : mantissa ≤ 2 ^ 53) (scale : Nat) :
    ∃ code, codeUnits code = mantissa * twoPow scale := by
  induction scale with
  | zero => exact ⟨_, codeUnits_of_normal ⟨h, .inl rfl⟩⟩
  | succ scale ih =>
    obtain ⟨code, hcode⟩ := ih
    obtain ⟨other, hother⟩ := codeUnits_double code
    exact ⟨other, by rw [hother, hcode, twoPow_succ, Nat.mul_assoc]⟩

lemma codeUnits_power (scale : Nat) : codeUnits ((scale + 1) * 2 ^ 52) = twoPow (52 + scale) := by
  rw [Nat.succ_mul, codeUnits_of_normal ⟨by decide, .inr le_rfl⟩, twoPow_add]
  rfl

lemma codeUnits_power_succ (scale : Nat) :
    codeUnits ((scale + 1) * 2 ^ 52 + 1) = twoPow (52 + scale) + twoPow scale := by
  rw [Nat.succ_mul, Nat.add_assoc, codeUnits_of_normal ⟨by decide, .inr (by decide)⟩, Nat.succ_mul,
    twoPow_add]
  rfl

/-- The units of the first code that no finite double has. -/
lemma codeUnits_limit : codeUnits (2047 * twoPow 52) = twoPow 1024 * one := by
  rw [one, ← twoPow_add]
  exact codeUnits_power 2046

/-! ## Values -/

/-- **The exact value of a double.** -/
def value (x : Binary64) : ℚ :=
  (x.signed x.units : ℤ) / (one : ℚ)

lemma one_pos : (0 : ℚ) < one := by
  exact_mod_cast twoPow_pos 1074

lemma value_eq (x : Binary64) :
    x.value = if x.negative then -(x.units / one : ℚ) else (x.units / one : ℚ) := by
  rw [value, signed]
  split
  · rw [Int.cast_neg, Int.cast_natCast, neg_div]
  · rw [Int.cast_natCast]

lemma abs_value (x : Binary64) : |x.value| = x.units / one := by
  have hnonneg : (0 : ℚ) ≤ x.units / one := div_nonneg (Nat.cast_nonneg _) one_pos.le
  rw [value_eq]
  split
  · rw [abs_neg, abs_of_nonneg hnonneg]
  · rw [abs_of_nonneg hnonneg]

lemma value_eq_abs (x : Binary64) : x.value = if x.negative then -|x.value| else |x.value| := by
  rw [abs_value, value_eq]

lemma abs_value_le_iff (x y : Binary64) : |x.value| ≤ |y.value| ↔ x.code ≤ y.code := by
  rw [abs_value, abs_value, div_le_div_iff_of_pos_right one_pos, Nat.cast_le, units_eq_codeUnits,
    units_eq_codeUnits, codeUnits_strictMono.le_iff_le]

/-- The double that is a given power of two. -/
lemma abs_value_power {x : Binary64} {n : Nat} (h : x.code = (n + 1023) * 2 ^ 52) :
    |x.value| = (twoPow n : ℕ) := by
  have hunits : x.units = twoPow n * one := by
    have hsum : 52 + (n + 1022) = n + 1074 := by omega
    rw [units_eq_codeUnits, h, codeUnits_power (n + 1022), hsum, twoPow_add, one]
  rw [abs_value, hunits, Nat.cast_mul, mul_div_cancel_right₀ _ one_pos.ne']

/-- A double with a given number of units, if that is below the limit. -/
lemma exists_of_codeUnits (negative : Bool) {code : Nat} (h : codeUnits code < twoPow 1024 * one) :
    ∃ x : Binary64, x.negative = negative ∧ x.code = code := by
  rw [← codeUnits_limit, codeUnits_strictMono.lt_iff_lt] at h
  exact ⟨⟨negative, code, h⟩, rfl, rfl⟩

/-- Every integer of at most fifty-three bits is a double, at any weight that is in range. -/
theorem exists_value_eq (negative : Bool) {mantissa : Nat} (h : mantissa ≤ 2 ^ 53) {scale : Nat}
    (hscale : scale ≤ 970) :
    ∃ x : Binary64, x.negative = negative ∧ |x.value| = (mantissa * twoPow scale : ℕ) := by
  obtain ⟨code, hcode⟩ := exists_codeUnits h (scale + 1074)
  have hunits : codeUnits code = mantissa * twoPow scale * one := by
    rw [hcode, twoPow_add, ← Nat.mul_assoc, one]
  have hlt : codeUnits code < twoPow 1024 * one := by
    rw [hunits]
    refine Nat.mul_lt_mul_of_pos_right ?_ (twoPow_pos 1074)
    calc mantissa * twoPow scale ≤ twoPow 53 * twoPow 970 := Nat.mul_le_mul h (twoPow_le hscale)
      _ = twoPow (53 + 970) := (twoPow_add 53 970).symm
      _ < twoPow 1024 := twoPow_lt (by decide)
  obtain ⟨x, hnegative, rfl⟩ := exists_of_codeUnits negative hlt
  refine ⟨x, hnegative, ?_⟩
  rw [abs_value, units_eq_codeUnits, hunits, Nat.cast_mul, mul_div_cancel_right₀ _ one_pos.ne']

end Binary64

/-! ## Truncation -/

/-- **The integer part of a rational**, towards zero. -/
def towardsZero (r : ℚ) : ℤ :=
  if 0 ≤ r then ⌊r⌋ else ⌈r⌉

lemma towardsZero_intCast (n : ℤ) : towardsZero n = n := by
  rw [towardsZero, Int.floor_intCast, Int.ceil_intCast, ite_self]

/-- **Truncating a double** gives the integer part of its exact value. -/
theorem Binary64.truncate_eq_towardsZero (x : Binary64) : x.truncate = towardsZero x.value := by
  have hfloor : ⌊(x.units / one : ℚ)⌋ = (x.units / one : ℕ) := by
    rw [Rat.floor_natCast_div_natCast, Int.natCast_ediv]
  have hnonneg : (0 : ℚ) ≤ x.units / one := div_nonneg (Nat.cast_nonneg _) one_pos.le
  rw [truncate, signed, value_eq, ← hfloor]
  cases x.negative with
  | false => exact (if_pos hnonneg).symm
  | true =>
    rw [if_pos rfl, if_pos rfl, towardsZero, Int.ceil_neg]
    split
    · next hneg =>
      have hzero : (x.units / one : ℚ) = 0 := le_antisymm (by linarith) hnonneg
      rw [hzero, neg_zero, Int.floor_zero, neg_zero]
    · rfl

end EventPayload
