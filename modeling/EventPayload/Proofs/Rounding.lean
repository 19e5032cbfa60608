import EventPayload.Proofs.Doubles
import Mathlib.Tactic.FieldSimp
import Mathlib.Tactic.Ring

/-!
# Rounding to the nearest double

Reading a numeral rounds an exact quotient to a code.  This file shows that the code is the nearest
one, and draws from that all that the other files need to know about rounding.

* `Binary64.RoundsTo` — **correct rounding**: no code is nearer, and of two that are equally near
  the even one is taken.  There is only one such code (`RoundsTo.unique`).
* `Binary64.nearestCode_roundsTo` — rounding a quotient is correct, so it depends on the value of
  the quotient alone.
* `Binary64.round?` — the nearest double of an exact value; `round?_abs_value` (doubles stay),
  `RoundsTo.le_code` and `RoundsTo.code_le` (a double on either side of the value stays on that
  side), `round?_eq_none` (overflow).
-/

namespace EventPayload.Binary64

/-! ## Rounding to an integer -/

/-- The rounded quotient is at most half a step away, and it is even if it is that far. -/
lemma halfEven_half (num : Nat) {den : Nat} (hd : 0 < den) :
    2 * |(num : ℤ) - halfEven num den * den| ≤ den ∧
      (2 * |(num : ℤ) - halfEven num den * den| = den → halfEven num den % 2 = 0) := by
  have hsplit : (num : ℤ) = den * (num / den : ℕ) + (num % den : ℕ) := by
    exact_mod_cast (Nat.div_add_mod num den).symm
  have hlt : num % den < den := Nat.mod_lt num hd
  rw [halfEven]
  generalize num / den = quotient at *
  generalize num % den = rest at *
  rw [hsplit]
  split
  · next hup =>
    have hdist : |((den * quotient + rest : ℤ)) - (quotient + 1 : ℕ) * den| = den - rest := by
      have hsub : ((den * quotient + rest : ℤ)) - (quotient + 1 : ℕ) * den = -(den - rest) := by
        push_cast
        ring
      rw [hsub, abs_neg, abs_of_nonneg (by omega)]
    rw [hdist]
    omega
  · next hdown =>
    have hdist : |((den * quotient + rest : ℤ)) - quotient * den| = rest := by
      have hsub : ((den * quotient + rest : ℤ)) - quotient * den = rest := by ring
      rw [hsub, abs_of_nonneg (by omega)]
    rw [hdist]
    omega

/-- No multiple is nearer than the rounded one, and a tie goes to the even one. -/
lemma halfEven_nearest (num : Nat) {den : Nat} (hd : 0 < den) (other : Nat) :
    |(num : ℤ) - halfEven num den * den| ≤ |(num : ℤ) - other * den| ∧
      (other ≠ halfEven num den →
        |(num : ℤ) - halfEven num den * den| = |(num : ℤ) - other * den| →
        halfEven num den % 2 = 0) := by
  obtain ⟨hhalf, heven⟩ := halfEven_half num hd
  generalize halfEven num den = rounded at *
  by_cases hother : other = rounded
  · subst hother
    exact ⟨le_rfl, fun hne => absurd rfl hne⟩
  · -- two multiples lie at least one step apart
    have hstep : (den : ℤ) ≤ |(num : ℤ) - rounded * den| + |(num : ℤ) - other * den| := by
      have hapart : (1 : ℤ) ≤ |(other : ℤ) - rounded| :=
        Int.one_le_abs (sub_ne_zero.mpr (by exact_mod_cast hother))
      calc (den : ℤ) = 1 * den := (one_mul _).symm
        _ ≤ |(other : ℤ) - rounded| * den := by gcongr
        _ = |((num : ℤ) - rounded * den) - (num - other * den)| := by
            rw [← abs_of_nonneg (Int.natCast_nonneg den), ← abs_mul]
            congr 1
            push_cast [abs_of_nonneg (Int.natCast_nonneg den)]
            ring
        _ ≤ |(num : ℤ) - rounded * den| + |(num : ℤ) - other * den| := abs_sub _ _
    exact ⟨by omega, fun _ htie => heven (by omega)⟩

/-! ## Correct rounding -/

/-- **Correct rounding** of a number of units: no code is nearer, and a tie goes to the even one. -/
structure RoundsTo (q : ℚ) (code : Nat) : Prop where
  nearest : ∀ other, |q - codeUnits code| ≤ |q - codeUnits other|
  even : ∀ other, other ≠ code → |q - codeUnits code| = |q - codeUnits other| → code % 2 = 0

namespace RoundsTo

variable {q : ℚ} {code : Nat}

/-- A code below the value stays below. -/
lemma le_code (h : RoundsTo q code) {other : Nat} (hother : (codeUnits other : ℚ) ≤ q) :
    other ≤ code := by
  by_contra hlt
  have hunits : (codeUnits code : ℚ) < codeUnits other := by
    exact_mod_cast codeUnits_strictMono (not_le.mp hlt)
  have hnearest := h.nearest other
  rw [abs_of_nonneg (by linarith), abs_of_nonneg (by linarith)] at hnearest
  linarith

/-- A code above the value stays above. -/
lemma code_le (h : RoundsTo q code) {other : Nat} (hother : q ≤ codeUnits other) :
    code ≤ other := by
  by_contra hlt
  have hunits : (codeUnits other : ℚ) < codeUnits code := by
    exact_mod_cast codeUnits_strictMono (not_le.mp hlt)
  have hnearest := h.nearest other
  rw [abs_of_nonpos (by linarith), abs_of_nonpos (by linarith)] at hnearest
  linarith

/-- A code's own units are not moved. -/
lemma eq_of_exact (h : RoundsTo q code) {other : Nat} (hother : q = codeUnits other) :
    code = other :=
  le_antisymm (h.code_le hother.le) (h.le_code hother.ge)

/-- Two codes that a value rounds to would both be even, and the one between them nearer. -/
lemma not_code_lt (h : RoundsTo q code) {other : Nat} (h' : RoundsTo q other) : ¬ code < other := by
  intro hlt
  have htie : |q - codeUnits code| = |q - codeUnits other| :=
    le_antisymm (h.nearest other) (h'.nearest code)
  have heven := h.even other hlt.ne' htie
  have heven' := h'.even code hlt.ne htie.symm
  have hbelow : (codeUnits code : ℚ) < codeUnits (code + 1) := by
    exact_mod_cast codeUnits_strictMono (Nat.lt_succ_self code)
  have habove : (codeUnits (code + 1) : ℚ) < codeUnits other := by
    exact_mod_cast codeUnits_strictMono (show code + 1 < other by omega)
  have hle : (codeUnits code : ℚ) ≤ q := by
    by_contra hgt
    rw [abs_of_neg (by linarith), abs_of_neg (by linarith)] at htie
    linarith
  have hge : q ≤ codeUnits other := by
    by_contra hgt
    rw [abs_of_pos (by linarith), abs_of_pos (by linarith)] at htie
    linarith
  rw [abs_of_nonneg (by linarith), abs_of_nonpos (by linarith)] at htie
  have hnearest := h.nearest (code + 1)
  rw [abs_of_nonneg (by linarith)] at hnearest
  rcases le_or_gt (codeUnits (code + 1) : ℚ) q with hq | hq
  · rw [abs_of_nonneg (by linarith)] at hnearest
    linarith
  · rw [abs_of_neg (by linarith)] at hnearest
    linarith

/-- **There is only one code** to round to. -/
theorem unique (h : RoundsTo q code) {other : Nat} (h' : RoundsTo q other) : code = other :=
  le_antisymm (not_lt.mp (h'.not_code_lt h)) (not_lt.mp (h.not_code_lt h'))

/-- Above an even code, the midpoint to the next one is still rounded down. -/
lemma eq_iff_le_midpoint (h : RoundsTo q code) {other : Nat} (heven : other % 2 = 0)
    (hle : (codeUnits other : ℚ) ≤ q) :
    code = other ↔ 2 * q ≤ codeUnits other + codeUnits (other + 1) := by
  have hnext : (codeUnits other : ℚ) < codeUnits (other + 1) := by
    exact_mod_cast codeUnits_strictMono (Nat.lt_succ_self other)
  constructor
  · rintro rfl
    have hnearest := h.nearest (code + 1)
    rw [abs_of_nonneg (by linarith)] at hnearest
    rcases le_total q (codeUnits (code + 1)) with hq | hq
    · rw [abs_of_nonpos (by linarith)] at hnearest
      linarith
    · rw [abs_of_nonneg (by linarith)] at hnearest
      linarith
  · intro hmiddle
    by_contra hne
    have hlt : other + 1 ≤ code := Nat.lt_of_le_of_ne (h.le_code hle) (Ne.symm hne)
    have habove : (codeUnits (other + 1) : ℚ) ≤ codeUnits code := by
      exact_mod_cast codeUnits_strictMono.monotone hlt
    have hnearest := h.nearest other
    have htie := h.even other (Ne.symm hne)
    rw [abs_of_nonpos (by linarith), abs_of_nonneg (by linarith)] at hnearest htie
    have hunits : codeUnits code = codeUnits (other + 1) := by
      exact_mod_cast le_antisymm (by linarith) habove
    have hcode := codeUnits_strictMono.injective hunits
    have hparity := htie (by linarith)
    omega

end RoundsTo

/-! ## The nearest code -/

section NearestCode

variable {num den scale : Nat}

/-- **The weight that a quotient is rounded at**: the quotient has no more than fifty-three bits at
that weight, and no fewer unless it is the least one. -/
lemma scale_bounds (hd : 0 < den) (hscale : scale = Nat.log2 (num / den) + 1 - 53) :
    num < den * twoPow (53 + scale) ∧ (scale = 0 ∨ den * twoPow (52 + scale) ≤ num) := by
  constructor
  · have hlt : num / den < twoPow (53 + scale) :=
      calc num / den < twoPow (Nat.log2 (num / den) + 1) := Nat.lt_log2_self
        _ ≤ twoPow (53 + scale) := twoPow_le (by omega)
    rwa [Nat.div_lt_iff_lt_mul hd, Nat.mul_comm] at hlt
  · rcases Nat.eq_zero_or_pos scale with hzero | hpos
    · exact .inl hzero
    · right
      have hne : num / den ≠ 0 := by
        intro hzero
        rw [hzero, Nat.log2_zero] at hscale
        omega
      have hle : twoPow (52 + scale) ≤ num / den := by
        have hlog : 52 + scale = Nat.log2 (num / den) := by omega
        rw [hlog]
        exact Nat.log2_self_le hne
      rwa [Nat.le_div_iff_mul_le hd, Nat.mul_comm] at hle

/-- A code's units lie on the grid of a weight, or below where that weight begins. -/
lemma codeUnits_grid (code scale : Nat) :
    (∃ k, codeUnits code = k * twoPow scale) ∨
      (scale ≠ 0 ∧ codeUnits code < twoPow (52 + scale)) := by
  obtain ⟨s, m, rfl, hm, hnormal⟩ := code_cases code
  rw [codeUnits_of_normal hnormal]
  rcases Nat.lt_or_ge s scale with hlt | hge
  · exact .inr ⟨by omega, (units_lt hm s).trans_le (twoPow_le (by omega))⟩
  · refine .inl ⟨m * twoPow (s - scale), ?_⟩
    rw [Nat.mul_assoc, ← twoPow_add, Nat.sub_add_cancel hge]

/-- Where a weight begins: the quotient has reached it, and no code below it has. -/
lemma start_le (hle : den * twoPow (52 + scale) ≤ num) :
    2 ^ 52 * (den * twoPow scale) ≤ num :=
  calc 2 ^ 52 * (den * twoPow scale) = den * twoPow (52 + scale) := by
        rw [twoPow_add, Nat.mul_left_comm, twoPow_eq 52]
    _ ≤ num := hle

lemma lt_start (hd : 0 < den) {units : Nat} (hbelow : units < twoPow (52 + scale)) :
    units * den < 2 ^ 52 * (den * twoPow scale) :=
  calc units * den < twoPow (52 + scale) * den := Nat.mul_lt_mul_of_pos_right hbelow hd
    _ = 2 ^ 52 * (den * twoPow scale) := by
        rw [twoPow_add, Nat.mul_assoc, Nat.mul_comm den, twoPow_eq 52]

lemma normal_halfEven (hd : 0 < den) (hlt : num < den * twoPow (53 + scale))
    (hle : scale = 0 ∨ den * twoPow (52 + scale) ≤ num) :
    Normal (halfEven num (den * twoPow scale)) scale := by
  have hpos : 0 < den * twoPow scale := Nat.mul_pos hd (twoPow_pos scale)
  obtain ⟨hfloor, hceil⟩ := halfEven_bounds num (den * twoPow scale)
  constructor
  · have hquotient : num / (den * twoPow scale) < 2 ^ 53 := by
      rw [Nat.div_lt_iff_lt_mul hpos]
      calc num < den * twoPow (53 + scale) := hlt
        _ = 2 ^ 53 * (den * twoPow scale) := by rw [twoPow_add, Nat.mul_left_comm, twoPow_eq 53]
    omega
  · rcases hle with hzero | hle
    · exact .inl hzero
    · right
      have hquotient : 2 ^ 52 ≤ num / (den * twoPow scale) := by
        rw [Nat.le_div_iff_mul_le hpos]
        exact start_le hle
      omega

/-- The distance between a quotient and a number of units, without a fraction. -/
lemma abs_quotient_sub (num : Nat) (hd : 0 < den) (units : Nat) :
    |(num / den : ℚ) - units| = (|(num : ℤ) - (units * den : ℕ)| : ℤ) / den := by
  have hden : (0 : ℚ) < den := by exact_mod_cast hd
  have hsub : (num / den : ℚ) - units = ((num : ℤ) - (units * den : ℕ) : ℤ) / den := by
    push_cast
    field_simp
  rw [hsub, abs_div, abs_of_pos hden, Int.cast_abs]

/-- No code is nearer than the multiple that the quotient is rounded to, and a tie goes to the even
multiple: codes on the grid of the weight are multiples themselves, and the others lie below where
the weight begins, which is a multiple, too. -/
lemma grid_nearest (hd : 0 < den) (hle : scale = 0 ∨ den * twoPow (52 + scale) ≤ num)
    (other : Nat) :
    |(num : ℤ) - (halfEven num (den * twoPow scale) * (den * twoPow scale) : ℕ)|
        ≤ |(num : ℤ) - (codeUnits other * den : ℕ)| ∧
      (codeUnits other ≠ halfEven num (den * twoPow scale) * twoPow scale →
        |(num : ℤ) - (halfEven num (den * twoPow scale) * (den * twoPow scale) : ℕ)|
          = |(num : ℤ) - (codeUnits other * den : ℕ)| →
        halfEven num (den * twoPow scale) % 2 = 0) := by
  have hnearest := halfEven_nearest num (Nat.mul_pos hd (twoPow_pos scale))
  generalize halfEven num (den * twoPow scale) = rounded at *
  rcases codeUnits_grid other scale with ⟨k, hk⟩ | ⟨hscale, hbelow⟩
  · have hother : codeUnits other * den = k * (den * twoPow scale) := by
      rw [hk, Nat.mul_assoc, Nat.mul_comm den]
    obtain ⟨hmin, htie⟩ := hnearest k
    rw [hother, hk]
    push_cast at hmin htie ⊢
    refine ⟨hmin, fun hne => htie ?_⟩
    rintro rfl
    exact hne rfl
  · have hstart := start_le (hle.resolve_left hscale)
    have hother := lt_start hd hbelow
    have hmin := (hnearest (2 ^ 52)).1
    have habove : (0 : ℤ) ≤ num - (2 ^ 52 * (den * twoPow scale) : ℕ) := by omega
    have habove' : (0 : ℤ) ≤ num - (codeUnits other * den : ℕ) := by omega
    rw [abs_of_nonneg habove']
    have hmin' : |(num : ℤ) - (rounded * (den * twoPow scale) : ℕ)|
        ≤ num - (2 ^ 52 * (den * twoPow scale) : ℕ) := by
      rw [← abs_of_nonneg habove]
      exact_mod_cast hmin
    exact ⟨by omega, fun _ htie => by omega⟩

/-- **Rounding at its weight is correct.** -/
lemma roundsTo_of_scale (hd : 0 < den) (hlt : num < den * twoPow (53 + scale))
    (hle : scale = 0 ∨ den * twoPow (52 + scale) ≤ num) :
    RoundsTo (num / den) (scale * 2 ^ 52 + halfEven num (den * twoPow scale)) := by
  have hnormal := normal_halfEven hd hlt hle
  have hdist := grid_nearest hd hle
  generalize halfEven num (den * twoPow scale) = rounded at *
  have hden : (0 : ℚ) < den := by exact_mod_cast hd
  have hcode : codeUnits (scale * 2 ^ 52 + rounded) * den = rounded * (den * twoPow scale) := by
    rw [codeUnits_of_normal hnormal, Nat.mul_assoc, Nat.mul_comm den]
  constructor
  · intro other
    rw [abs_quotient_sub num hd, abs_quotient_sub num hd, hcode,
      div_le_div_iff_of_pos_right hden, Int.cast_le]
    exact (hdist other).1
  · intro other hother htie
    rw [abs_quotient_sub num hd, abs_quotient_sub num hd, hcode, div_left_inj' hden.ne',
      Int.cast_inj] at htie
    have hne : codeUnits other ≠ rounded * twoPow scale := by
      rw [← codeUnits_of_normal hnormal]
      exact codeUnits_strictMono.injective.ne hother
    have heven := (hdist other).2 hne htie
    omega

/-- **Rounding a quotient is correct.** -/
theorem nearestCode_roundsTo (num : Nat) (hd : 0 < den) :
    RoundsTo ((num * one : ℕ) / den) (nearestCode num den) := by
  obtain ⟨hlt, hle⟩ := @scale_bounds (num * one) den _ hd rfl
  exact roundsTo_of_scale hd hlt hle

end NearestCode

/-! ## The nearest double -/

/-- **The nearest double** to a value that is not negative; the sign is given apart. -/
def round? (negative : Bool) (q : ℚ) : Option Binary64 :=
  ofRatio? negative q.num.natAbs q.den

section Round

variable {negative : Bool} {q : ℚ} {x : Binary64}

lemma exists_roundsTo (hq : 0 ≤ q) :
    ∃ code, nearestCode q.num.natAbs q.den = code ∧ RoundsTo (q * one) code := by
  refine ⟨_, rfl, ?_⟩
  have hround := nearestCode_roundsTo q.num.natAbs q.den_pos
  have hnum : ((q.num.natAbs : ℕ) : ℚ) = q.num := by
    rw [← Int.cast_natCast, Int.natAbs_of_nonneg (Rat.num_nonneg.mpr hq)]
  have hvalue : ((q.num.natAbs * one : ℕ) : ℚ) / q.den = q * one := by
    rw [Nat.cast_mul, hnum, mul_div_right_comm, Rat.num_div_den]
  rwa [hvalue] at hround

/-- The double that a value is rounded to. -/
theorem round?_eq_some_iff (hq : 0 ≤ q) :
    round? negative q = some x ↔ x.negative = negative ∧ RoundsTo (q * one) x.code := by
  obtain ⟨code, hcode, hround⟩ := exists_roundsTo hq
  rw [round?, ofRatio?, hcode]
  constructor
  · intro h
    split at h
    · obtain rfl := Option.some.inj h
      exact ⟨rfl, hround⟩
    · cases h
  · rintro ⟨rfl, hx⟩
    obtain rfl := hround.unique hx
    exact dif_pos x.code_lt

lemma round?_eq_none_iff (hq : 0 ≤ q) :
    round? negative q = none ↔ ∃ code, RoundsTo (q * one) code ∧ 2047 * twoPow 52 ≤ code := by
  obtain ⟨code, hcode, hround⟩ := exists_roundsTo hq
  rw [round?, ofRatio?, hcode]
  constructor
  · intro h
    split at h
    · cases h
    · next hge => exact ⟨code, hround, not_lt.mp hge⟩
  · rintro ⟨other, hother, hge⟩
    obtain rfl := hround.unique hother
    exact dif_neg hge.not_gt

/-- **Rounding a quotient** depends on its value alone. -/
theorem ofRatio?_eq_round? (negative : Bool) (num : Nat) {den : Nat} (hd : 0 < den) :
    ofRatio? negative num den = round? negative (num / den) := by
  have hq : (0 : ℚ) ≤ num / den := div_nonneg (Nat.cast_nonneg _) (Nat.cast_nonneg _)
  obtain ⟨code, hcode, hround⟩ := exists_roundsTo hq
  have hvalue : ((num * one : ℕ) : ℚ) / den = num / den * one := by
    rw [Nat.cast_mul, mul_div_right_comm]
  have hsame : nearestCode num den = code := by
    have hnearest := nearestCode_roundsTo num hd
    rw [hvalue] at hnearest
    exact hnearest.unique hround
  rw [round?, ofRatio?, ofRatio?, hcode, hsame]

lemma units_eq_abs_mul (x : Binary64) : (codeUnits x.code : ℚ) = |x.value| * one := by
  rw [abs_value, div_mul_cancel₀ _ one_pos.ne', units_eq_codeUnits]

/-- A double is its own nearest. -/
lemma round?_abs_value (x : Binary64) : round? x.negative |x.value| = some x := by
  obtain ⟨code, -, hround⟩ := exists_roundsTo (abs_nonneg x.value)
  have hcode : code = x.code := hround.eq_of_exact (units_eq_abs_mul x).symm
  exact (round?_eq_some_iff (abs_nonneg x.value)).mpr ⟨rfl, hcode ▸ hround⟩

/-- A double below the value stays below what the value is rounded to. -/
lemma abs_le_of_round? (hq : 0 ≤ q) (h : round? negative q = some x) {y : Binary64}
    (hy : |y.value| ≤ q) : |y.value| ≤ |x.value| := by
  have hround := ((round?_eq_some_iff hq).mp h).2
  rw [abs_value_le_iff]
  refine hround.le_code ?_
  rw [units_eq_abs_mul]
  exact mul_le_mul_of_nonneg_right hy one_pos.le

/-- A double above the value stays above what the value is rounded to. -/
lemma round?_le_abs (hq : 0 ≤ q) (h : round? negative q = some x) {y : Binary64}
    (hy : q ≤ |y.value|) : |x.value| ≤ |y.value| := by
  have hround := ((round?_eq_some_iff hq).mp h).2
  rw [abs_value_le_iff]
  refine hround.code_le ?_
  rw [units_eq_abs_mul]
  exact mul_le_mul_of_nonneg_right hy one_pos.le

/-- **No double is nearer** than the one that a value is rounded to. -/
theorem nearest_of_round? (hq : 0 ≤ q) (h : round? negative q = some x) (y : Binary64) :
    abs (q - |x.value|) ≤ abs (q - |y.value|) := by
  have hnearest := ((round?_eq_some_iff hq).mp h).2.nearest y.code
  rw [units_eq_abs_mul, units_eq_abs_mul, ← sub_mul, ← sub_mul, abs_mul, abs_mul] at hnearest
  exact le_of_mul_le_mul_right hnearest (abs_pos.mpr one_pos.ne')

/-- Up to the value of a double there is no overflow. -/
lemma exists_round? (negative : Bool) (hq : 0 ≤ q) {y : Binary64} (hy : q ≤ |y.value|) :
    ∃ x, round? negative q = some x := by
  obtain ⟨code, -, hround⟩ := exists_roundsTo hq
  have hcode : code ≤ y.code := by
    refine hround.code_le ?_
    rw [units_eq_abs_mul]
    exact mul_le_mul_of_nonneg_right hy one_pos.le
  exact ⟨⟨negative, code, hcode.trans_lt y.code_lt⟩, (round?_eq_some_iff hq).mpr ⟨rfl, hround⟩⟩

lemma lt_of_round?_eq_none (hq : 0 ≤ q) (h : round? negative q = none) (y : Binary64) :
    |y.value| < q := by
  by_contra hle
  obtain ⟨x, hx⟩ := exists_round? negative hq (not_lt.mp hle)
  rw [h] at hx
  cases hx

/-- **Overflow.** -/
lemma round?_eq_none (h : (twoPow 1024 : ℚ) ≤ q) : round? negative q = none := by
  have hq : 0 ≤ q := (Nat.cast_nonneg _).trans h
  obtain ⟨code, -, hround⟩ := exists_roundsTo hq
  refine (round?_eq_none_iff hq).mpr ⟨code, hround, hround.le_code ?_⟩
  rw [codeUnits_limit, Nat.cast_mul]
  exact mul_le_mul_of_nonneg_right h one_pos.le

/-- What is less than half a unit is rounded to zero. -/
lemma round?_of_lt_half (hq : 0 ≤ q) (h : q * one < 1 / 2) :
    round? negative q = some (zero negative) := by
  obtain ⟨code, -, hround⟩ := exists_roundsTo hq
  have hzero : code = 0 := by
    by_contra hne
    have hunit : (1 : ℚ) ≤ codeUnits code := by
      exact_mod_cast codeUnits_zero ▸ codeUnits_strictMono (Nat.pos_of_ne_zero hne)
    have hpos : 0 ≤ q * one := mul_nonneg hq one_pos.le
    have hnearest := hround.nearest 0
    rw [codeUnits_zero, Nat.cast_zero, sub_zero, abs_of_nonneg hpos, abs_of_nonpos (by linarith)]
      at hnearest
    linarith
  subst hzero
  exact (round?_eq_some_iff hq).mpr ⟨rfl, hround⟩

/-- **Just above a power of two**: up to half a step the power is the nearest double, and from there
on the double is at least one step farther up. -/
lemma round?_above_power {k : Nat} (hq : (twoPow (k + 53) : ℚ) ≤ q)
    (h : round? negative q = some x) :
    (q ≤ twoPow (k + 53) + twoPow k → |x.value| = twoPow (k + 53)) ∧
      (twoPow (k + 53) + twoPow k < q → (twoPow (k + 53) + twoPow (k + 1) : ℚ) ≤ |x.value|) := by
  have hround := ((round?_eq_some_iff ((Nat.cast_nonneg _).trans hq)).mp h).2
  have hpower : codeUnits ((k + 1075 + 1) * 2 ^ 52) = twoPow (k + 53) * one := by
    have hsum : 52 + (k + 1075) = k + 53 + 1074 := by omega
    rw [codeUnits_power, hsum, twoPow_add, one]
  have hnext : codeUnits ((k + 1075 + 1) * 2 ^ 52 + 1)
      = (twoPow (k + 53) + twoPow (k + 1)) * one := by
    have hstep : twoPow (k + 1075) = twoPow (k + 1) * one := twoPow_add (k + 1) 1074
    rw [codeUnits_power_succ, Nat.add_mul, ← hpower, codeUnits_power, hstep]
  have hle : (codeUnits ((k + 1075 + 1) * 2 ^ 52) : ℚ) ≤ q * one := by
    rw [hpower, Nat.cast_mul]
    exact mul_le_mul_of_nonneg_right hq one_pos.le
  have hmiddle : x.code = (k + 1075 + 1) * 2 ^ 52 ↔ q ≤ twoPow (k + 53) + twoPow k := by
    rw [hround.eq_iff_le_midpoint (by omega) hle, hpower, hnext, ← Nat.cast_add, ← Nat.add_mul,
      Nat.cast_mul, ← mul_assoc, mul_le_mul_iff_left₀ one_pos, twoPow_succ k]
    push_cast
    constructor <;> intro hbound <;> linarith
  constructor
  · intro hbelow
    exact abs_value_power (hmiddle.mpr hbelow)
  · intro habove
    have hcode : (k + 1075 + 1) * 2 ^ 52 + 1 ≤ x.code :=
      Nat.lt_of_le_of_ne (hround.le_code hle) fun heq => habove.not_ge (hmiddle.mp heq.symm)
    have hunits : ((twoPow (k + 53) + twoPow (k + 1) : ℕ) : ℚ) * one ≤ |x.value| * one := by
      rw [← Nat.cast_mul, ← hnext, ← units_eq_abs_mul]
      exact_mod_cast codeUnits_strictMono.monotone hcode
    exact_mod_cast le_of_mul_le_mul_right hunits one_pos

end Round

end EventPayload.Binary64
