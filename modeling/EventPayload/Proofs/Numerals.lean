import EventPayload.Number.Decimal
import EventPayload.Proofs.Rounding
import Mathlib.Algebra.Order.Field.Power
import Mathlib.Data.List.TakeWhile
import Mathlib.Data.Nat.Digits.Defs
import Mathlib.Tactic.NormNum
import Mathlib.Tactic.Positivity

/-!
# What numerals spell

A text is taken apart into the parts of a numeral, and the parts have an exact value.  This file
says which texts those are, and that reading them rounds that value.

* `Numeral.Spells` — **the grammar**: sign, digits, a point with digits behind it, an exponent mark
  with its sign and digits.  `scan?_eq_some_iff` ties it to the reader.
* `integer?_eq_some_iff` — the grammar of integers, and `integer?_of_spells` how the two are
  related: a numeral is an integer exactly if it has neither point nor exponent mark.
* `Numeral.value` — **the exact value** of a numeral, from its parts.
* `Decimal.toBinary64?_eq_round?` — reading rounds the exact value; the shortcuts for very large
  and very small values do not show.
-/

namespace EventPayload

/-! ## Digits -/

lemma digitsValue_append (xs ys : List Char) :
    digitsValue (xs ++ ys) = 10 ^ ys.length * digitsValue xs + digitsValue ys := by
  rw [digitsValue, Nat.ofDigitChars_append, Nat.ofDigitChars_eq_ofDigitChars_zero]
  rfl

lemma digitsValue_toDigits (n : Nat) : digitsValue (Nat.toDigits 10 n) = n :=
  Nat.ofDigitChars_ten_toDigits

lemma digitsValue_replicate_zero (n : Nat) : digitsValue (List.replicate n '0') = 0 := by
  rw [digitsValue, Nat.ofDigitChars_replicate_zero, Nat.mul_zero]

/-- One digit is at most nine, and only the digit zero is zero. -/
lemma digitsValue_singleton {c : Char} (h : c.isDigit) :
    digitsValue [c] ≤ 9 ∧ (digitsValue [c] = 0 → c = '0') := by
  have hvalue : digitsValue [c] = c.toNat - '0'.toNat := by
    simp [digitsValue, Nat.ofDigitChars_cons]
  simp only [Char.isDigit, Bool.and_eq_true, decide_eq_true_eq] at h
  have hge : '0'.toNat ≤ c.toNat := h.1
  have hle : c.toNat ≤ '9'.toNat := h.2
  simp only [Char.reduceToNat] at hvalue hge hle
  refine ⟨by omega, fun hzero => Char.ext (UInt32.toNat_inj.mp ?_)⟩
  exact show c.toNat = 48 by omega

lemma digitsValue_lt {digits : List Char} (h : ∀ c ∈ digits, c.isDigit) :
    digitsValue digits < 10 ^ digits.length := by
  induction digits with
  | nil => decide
  | cons c rest ih =>
    rw [List.forall_mem_cons] at h
    calc digitsValue (c :: rest) = 10 ^ rest.length * digitsValue [c] + digitsValue rest :=
          digitsValue_append [c] rest
      _ < 10 ^ rest.length * 9 + 10 ^ rest.length :=
          Nat.add_lt_add_of_le_of_lt (Nat.mul_le_mul_left _ (digitsValue_singleton h.1).1) (ih h.2)
      _ = 10 ^ (c :: rest).length := by rw [List.length_cons, Nat.pow_succ]; omega

lemma isDigit_of_mem_toDigits {c : Char} {n : Nat} (h : c ∈ Nat.toDigits 10 n) : c.isDigit :=
  Nat.isDigit_of_mem_toDigits (by decide) (by decide) h

lemma length_toDigits_bounds {n : Nat} (h : n ≠ 0) :
    10 ^ ((Nat.toDigits 10 n).length - 1) ≤ n ∧ n < 10 ^ (Nat.toDigits 10 n).length := by
  have hlength : 0 < (Nat.toDigits 10 n).length := List.length_pos_iff.mpr Nat.toDigits_ne_nil
  constructor
  · rcases Nat.eq_zero_or_pos ((Nat.toDigits 10 n).length - 1) with hone | hmore
    · rw [hone]
      omega
    · by_contra hlt
      have hshort := Nat.toDigits_length 10 n _ hmore (not_le.mp hlt)
      omega
  · have hlt := digitsValue_lt (fun c => isDigit_of_mem_toDigits (c := c) (n := n))
    rwa [digitsValue_toDigits] at hlt

/-! ## Signs -/

def Sign.chars : Sign → List Char
  | none => []
  | plus => ['+']
  | minus => ['-']

lemma Sign.chars_scan (cs : List Char) : (Sign.scan cs).1.chars ++ (Sign.scan cs).2 = cs := by
  fun_cases Sign.scan cs <;> rfl

lemma Sign.scan_chars_append (sign : Sign) {rest : List Char}
    (h : ∀ c ∈ rest.head?, c ≠ '+' ∧ c ≠ '-') : Sign.scan (sign.chars ++ rest) = (sign, rest) := by
  cases sign with
  | plus => rfl
  | minus => rfl
  | none =>
    rw [chars, List.nil_append]
    fun_cases Sign.scan rest with
    | case1 => exact absurd rfl (h _ rfl).1
    | case2 => exact absurd rfl (h _ rfl).2
    | case3 => rfl

lemma not_sign_of_isDigit {c : Char} (h : c.isDigit) : c ≠ '+' ∧ c ≠ '-' := by
  constructor <;> rintro rfl <;> exact absurd h (by decide)

lemma head_isDigit {digits : List Char} (h : ∀ c ∈ digits, c.isDigit) :
    ∀ c ∈ digits.head?, c ≠ '+' ∧ c ≠ '-' :=
  fun _ hc => not_sign_of_isDigit (h _ (List.mem_of_mem_head? hc))

/-- **The grammar of integers.** -/
theorem integer?_eq_some_iff (cs : List Char) (value : ℤ) :
    integer? cs = some value ↔ ∃ sign digits, cs = Sign.chars sign ++ digits ∧ digits ≠ [] ∧
      (∀ c ∈ digits, c.isDigit) ∧ value = sign.apply (digitsValue digits) := by
  constructor
  · intro h
    simp only [integer?] at h
    split at h
    · next hdigits =>
      exact ⟨_, _, (Sign.chars_scan cs).symm, hdigits.1, List.all_eq_true.mp hdigits.2,
        (Option.some.inj h).symm⟩
    · cases h
  · rintro ⟨sign, digits, rfl, hne, hdigits, rfl⟩
    simp only [integer?, Sign.scan_chars_append sign (head_isDigit hdigits)]
    exact if_pos ⟨hne, List.all_eq_true.mpr hdigits⟩

namespace Numeral

/-! ## Spelling -/

def fractionChars : Option (List Char) → List Char
  | none => []
  | some digits => '.' :: digits

def exponentChars (mark : Char) : Option (Sign × List Char) → List Char
  | none => []
  | some (sign, digits) => mark :: (sign.chars ++ digits)

/-- The characters of a numeral, with a given exponent mark. -/
def chars (mark : Char) (n : Numeral) : List Char :=
  n.sign.chars ++ (n.whole ++ (fractionChars n.fraction ++ exponentChars mark n.exponent))

/-- **What a text spells.** -/
structure Spells (n : Numeral) (cs : List Char) : Prop where
  whole : ∀ c ∈ n.whole, c.isDigit
  fraction : ∀ c ∈ n.fractionDigits, c.isDigit
  exponent : ∀ e ∈ n.exponent, ∀ c ∈ e.2, c.isDigit
  text : ∃ mark, (mark = 'e' ∨ mark = 'E') ∧ cs = n.chars mark

lemma takeWhile_isDigit_append {digits rest : List Char} (h : ∀ c ∈ digits, c.isDigit)
    (hrest : ∀ c ∈ rest.head?, c.isDigit = false) :
    (digits ++ rest).takeWhile Char.isDigit = digits ∧
      (digits ++ rest).dropWhile Char.isDigit = rest := by
  rw [List.takeWhile_append_of_pos h, List.dropWhile_append_of_pos h]
  cases rest with
  | nil => simp
  | cons c cs => simp [hrest c rfl]

variable {mark : Char}

lemma head_exponentChars (hmark : mark = 'e' ∨ mark = 'E') (exponent : Option (Sign × List Char)) :
    ∀ c ∈ (exponentChars mark exponent).head?, c = 'e' ∨ c = 'E' := by
  cases exponent with
  | none => simp [exponentChars]
  | some e =>
    rintro c hc
    rwa [← Option.some.inj hc]

lemma head_fractionChars (hmark : mark = 'e' ∨ mark = 'E') (fraction : Option (List Char))
    (exponent : Option (Sign × List Char)) :
    ∀ c ∈ (fractionChars fraction ++ exponentChars mark exponent).head?,
      c = '.' ∨ c = 'e' ∨ c = 'E' := by
  cases fraction with
  | none => exact fun c hc => .inr (head_exponentChars hmark exponent c hc)
  | some digits =>
    rintro c hc
    exact .inl (Option.some.inj hc).symm

lemma scanFraction_chars (hmark : mark = 'e' ∨ mark = 'E') {fraction : Option (List Char)}
    (h : ∀ c ∈ fraction.getD [], c.isDigit) (exponent : Option (Sign × List Char)) :
    scanFraction (fractionChars fraction ++ exponentChars mark exponent)
      = (fraction, exponentChars mark exponent) := by
  cases fraction with
  | none =>
    cases exponent with
    | none => rfl
    | some e => rcases hmark with rfl | rfl <;> rfl
  | some digits =>
    have hdigits : ∀ c ∈ digits, c.isDigit := h
    obtain ⟨htake, hdrop⟩ := takeWhile_isDigit_append hdigits fun c hc => by
      rcases head_exponentChars hmark exponent c hc with rfl | rfl <;> decide
    rw [fractionChars, List.cons_append, scanFraction, htake, hdrop]

lemma scanExponent?_chars (hmark : mark = 'e' ∨ mark = 'E') {exponent : Option (Sign × List Char)}
    (h : ∀ e ∈ exponent, ∀ c ∈ e.2, c.isDigit) :
    scanExponent? (exponentChars mark exponent) = some exponent := by
  cases exponent with
  | none => rfl
  | some e =>
    have hdigits : ∀ c ∈ e.2, c.isDigit := h e rfl
    simp only [exponentChars, scanExponent?, Sign.scan_chars_append e.1 (head_isDigit hdigits)]
    exact if_pos ⟨hmark, List.all_eq_true.mpr hdigits⟩

lemma fractionChars_scanFraction (cs : List Char) :
    fractionChars (scanFraction cs).1 ++ (scanFraction cs).2 = cs ∧
      ∀ c ∈ (scanFraction cs).1.getD [], c.isDigit := by
  fun_cases scanFraction cs with
  | case1 rest =>
    exact ⟨congrArg ('.' :: ·) List.takeWhile_append_dropWhile, fun _ => List.mem_takeWhile_imp⟩
  | case2 => exact ⟨rfl, List.forall_mem_nil _⟩

lemma exponentChars_of_scanExponent? {cs : List Char} {exponent : Option (Sign × List Char)}
    (h : scanExponent? cs = some exponent) :
    (∃ mark, (mark = 'e' ∨ mark = 'E') ∧ cs = exponentChars mark exponent) ∧
      ∀ e ∈ exponent, ∀ c ∈ e.2, c.isDigit := by
  cases cs with
  | nil =>
    obtain rfl := Option.some.inj h
    exact ⟨⟨'e', .inl rfl, rfl⟩, fun _ he => nomatch he⟩
  | cons c rest =>
    simp only [scanExponent?] at h
    split at h
    · next hmark =>
      obtain rfl := Option.some.inj h
      refine ⟨⟨c, hmark.1, congrArg (c :: ·) (Sign.chars_scan rest).symm⟩, ?_⟩
      rintro e he
      obtain rfl := Option.some.inj he
      exact List.all_eq_true.mp hmark.2
    · cases h

/-- The three stages of the reader. -/
lemma scan?_eq (cs : List Char) :
    scan? cs =
      let rest := (Sign.scan cs).2.dropWhile Char.isDigit
      (scanExponent? (scanFraction rest).2).map fun exponent =>
        ⟨(Sign.scan cs).1, (Sign.scan cs).2.takeWhile Char.isDigit, (scanFraction rest).1,
          exponent⟩ :=
  rfl

/-- **The reader reads what a text spells.** -/
theorem scan?_eq_some_iff (cs : List Char) (n : Numeral) : scan? cs = some n ↔ n.Spells cs := by
  constructor
  · intro h
    rw [scan?_eq] at h
    obtain ⟨exponent, hexponent, rfl⟩ := Option.map_eq_some_iff.mp h
    obtain ⟨hfraction, hdigits⟩ :=
      fractionChars_scanFraction ((Sign.scan cs).2.dropWhile Char.isDigit)
    obtain ⟨⟨mark, hmark, hrest⟩, hexponent⟩ := exponentChars_of_scanExponent? hexponent
    refine ⟨fun _ => List.mem_takeWhile_imp, hdigits, hexponent, mark, hmark, ?_⟩
    rw [chars, ← hrest, hfraction, List.takeWhile_append_dropWhile, Sign.chars_scan]
  · rintro ⟨hwhole, hfraction, hexponent, mark, hmark, rfl⟩
    have hhead := head_fractionChars hmark n.fraction n.exponent
    obtain ⟨htake, hdrop⟩ := takeWhile_isDigit_append hwhole fun c hc => by
      rcases hhead c hc with rfl | rfl | rfl <;> decide
    have hsign : ∀ c ∈ (n.whole ++ (fractionChars n.fraction ++
        exponentChars mark n.exponent)).head?, c ≠ '+' ∧ c ≠ '-' := by
      intro c hc
      cases hn : n.whole with
      | nil =>
        rw [hn] at hc
        rcases hhead c hc with rfl | rfl | rfl <;> decide
      | cons d rest =>
        rw [hn] at hc hwhole
        rw [← Option.some.inj hc]
        exact not_sign_of_isDigit (hwhole d List.mem_cons_self)
    simp only [scan?, chars, Sign.scan_chars_append n.sign hsign, htake, hdrop,
      scanFraction_chars hmark hfraction, scanExponent?_chars hmark hexponent, Option.map_some]

lemma Spells.unique {n m : Numeral} {cs : List Char} (h : n.Spells cs) (h' : m.Spells cs) :
    n = m := by
  rw [← scan?_eq_some_iff] at h h'
  exact Option.some.inj (h.symm.trans h')

/-- A sign and digits spell an integer. -/
lemma spells_integer (sign : Sign) {digits : List Char} (h : ∀ c ∈ digits, c.isDigit) :
    Spells ⟨sign, digits, none, none⟩ (sign.chars ++ digits) := by
  refine ⟨h, List.forall_mem_nil _, (fun _ he => nomatch he), 'e', .inl rfl, ?_⟩
  rw [chars, fractionChars, exponentChars, List.append_nil, List.append_nil]

/-- **A numeral is an integer** exactly if it has neither point nor exponent mark. -/
lemma integer?_of_spells {n : Numeral} {cs : List Char} (h : n.Spells cs) (hloose : n.IsLoose) :
    integer? cs = if n.isInteger then some (n.sign.apply (digitsValue n.whole)) else none := by
  split
  · next hinteger =>
    rw [isInteger, Bool.and_eq_true, Option.isNone_iff_eq_none, Option.isNone_iff_eq_none]
      at hinteger
    obtain ⟨hfraction, hexponent⟩ := hinteger
    obtain ⟨mark, -, hcs⟩ := h.text
    have hne : n.whole ≠ [] := by
      have hdigits := hloose.1
      rw [hfraction] at hdigits
      simpa using hdigits
    refine (integer?_eq_some_iff cs _).mpr ⟨n.sign, n.whole, ?_, hne, h.whole, rfl⟩
    rw [hcs, chars, hfraction, hexponent, fractionChars, exponentChars, List.append_nil,
      List.append_nil]
  · next hinteger =>
    rw [Option.eq_none_iff_forall_ne_some]
    intro value hvalue
    obtain ⟨sign, digits, hcs, -, hdigits, -⟩ := (integer?_eq_some_iff cs value).mp hvalue
    rw [hcs] at h
    rw [h.unique (spells_integer sign hdigits)] at hinteger
    exact hinteger rfl

/-! ## Values -/

/-- The size of a numeral's value, whatever its sign. -/
def magnitude (n : Numeral) : ℚ :=
  (digitsValue n.whole + digitsValue n.fractionDigits / 10 ^ n.fractionDigits.length)
    * 10 ^ n.power

/-- **The exact value** of a numeral. -/
def value (n : Numeral) : ℚ :=
  if n.sign = .minus then -n.magnitude else n.magnitude

lemma magnitude_nonneg (n : Numeral) : 0 ≤ n.magnitude := by
  unfold magnitude
  positivity

lemma abs_value (n : Numeral) : |n.value| = n.magnitude := by
  rw [value]
  split
  · rw [abs_neg, abs_of_nonneg n.magnitude_nonneg]
  · rw [abs_of_nonneg n.magnitude_nonneg]

lemma value_of_isInteger {n : Numeral} (h : n.isInteger) :
    n.value = n.sign.apply (digitsValue n.whole) := by
  rw [isInteger, Bool.and_eq_true, Option.isNone_iff_eq_none, Option.isNone_iff_eq_none] at h
  have hmagnitude : n.magnitude = digitsValue n.whole := by
    simp [magnitude, fractionDigits, power, h.1, h.2, digitsValue]
  rw [value, hmagnitude, Sign.apply]
  split <;> simp

/-! ## Numerals of doubles -/

section Double

variable {n : Numeral} {x : Binary64}

/-- A numeral with the value of a double is rounded to that double. -/
lemma round?_of_abs_value (hsign : x.negative = decide (n.sign = .minus))
    (h : |x.value| = n.magnitude) :
    Binary64.round? (n.sign = .minus) n.magnitude = some x ∧ x.value = n.value := by
  constructor
  · rw [← h, ← hsign]
    exact x.round?_abs_value
  · rw [x.value_eq_abs, h, hsign, value]
    simp only [decide_eq_true_eq]

/-- Values other than zero have one sign only. -/
lemma round?_of_value (h : x.value = n.value) (hne : x.value ≠ 0) :
    Binary64.round? (n.sign = .minus) n.magnitude = some x := by
  have hmagnitude : |x.value| = n.magnitude := by rw [h, n.abs_value]
  refine (round?_of_abs_value ?_ hmagnitude).1
  have hpos : 0 < |x.value| := abs_pos.mpr hne
  rw [x.value_eq_abs, value, ← hmagnitude] at h
  by_cases hsign : n.sign = .minus
  · rw [if_pos hsign] at h
    rw [decide_eq_true hsign]
    by_contra hnegative
    rw [if_neg hnegative] at h
    linarith
  · rw [if_neg hsign] at h
    rw [decide_eq_false hsign]
    by_contra hnegative
    rw [Bool.not_eq_false] at hnegative
    rw [if_pos hnegative] at h
    linarith

end Double

end Numeral

namespace Decimal

/-- The exact value of a decimal, whatever its sign. -/
def absValue (d : Decimal) : ℚ :=
  d.coefficient * 10 ^ d.exponent

lemma absValue_nonneg (d : Decimal) : 0 ≤ d.absValue := by
  unfold absValue
  positivity

lemma absValue_toDecimal (n : Numeral) : n.toDecimal.absValue = n.magnitude := by
  have hten : (10 : ℚ) ≠ 0 := by norm_num
  simp only [absValue, Numeral.toDecimal, Numeral.magnitude, digitsValue_append]
  rw [zpow_sub₀ hten, zpow_natCast]
  push_cast
  field_simp

lemma cast_tenPow (n : Nat) : ((tenPow n : ℕ) : ℚ) = 10 ^ (n : ℤ) := by
  rw [zpow_natCast]
  exact Nat.cast_pow 10 n

/-- A power of ten as a quotient of natural numbers. -/
lemma tenPow_quotient (k : ℤ) : ((tenPow k.toNat : ℕ) : ℚ) / (tenPow (-k).toNat : ℕ) = 10 ^ k := by
  have hten : (10 : ℚ) ≠ 0 := by norm_num
  rw [cast_tenPow, cast_tenPow, ← zpow_sub₀ hten, Int.toNat_sub_toNat_neg]

/-- **The power of ten above the value**: the value lies below it, and not below the one before. -/
lemma absValue_bounds {d : Decimal} (h : d.coefficient ≠ 0) :
    (10 : ℚ) ^ (d.magnitude - 1) ≤ d.absValue ∧ d.absValue < 10 ^ d.magnitude := by
  have hten : (10 : ℚ) ≠ 0 := by norm_num
  have hpos : (0 : ℚ) < 10 ^ d.exponent := zpow_pos (by norm_num) _
  obtain ⟨hle, hlt⟩ := length_toDigits_bounds h
  have hlength : 0 < (Nat.toDigits 10 d.coefficient).length :=
    List.length_pos_iff.mpr Nat.toDigits_ne_nil
  rw [magnitude, absValue]
  generalize (Nat.toDigits 10 d.coefficient).length = length at *
  constructor
  · have hsum : (length : ℤ) + d.exponent - 1 = (length - 1 : ℕ) + d.exponent := by omega
    rw [hsum, zpow_add₀ hten, zpow_natCast]
    exact mul_le_mul_of_nonneg_right (by exact_mod_cast hle) hpos.le
  · rw [zpow_add₀ hten, zpow_natCast]
    exact mul_lt_mul_of_pos_right (by exact_mod_cast hlt) hpos

/-- The values that the reader takes for zero are less than half a unit. -/
lemma absValue_lt_half {d : Decimal} (h : d.coefficient = 0 ∨ d.magnitude < -330) :
    d.absValue * Binary64.one < 1 / 2 := by
  by_cases hzero : d.coefficient = 0
  · rw [absValue, hzero, Nat.cast_zero, zero_mul, zero_mul]
    norm_num
  · have hmagnitude : d.magnitude ≤ -331 := by
      have hlt := h.resolve_left hzero
      omega
    have hunits : ((Binary64.one * 2 : ℕ) : ℚ) < (tenPow 331 : ℕ) :=
      Nat.cast_lt.mpr (by decide +kernel)
    have hpos : (0 : ℚ) < 10 ^ (-331 : ℤ) := zpow_pos (by norm_num) _
    have hpower : (10 : ℚ) ^ (-331 : ℤ) * (tenPow 331 : ℕ) = 1 := by
      rw [cast_tenPow, zpow_neg]
      exact inv_mul_cancel₀ (zpow_pos (by norm_num) _).ne'
    have hhalf := mul_lt_mul_of_pos_left hunits hpos
    rw [hpower, Nat.cast_mul, Nat.cast_ofNat, ← mul_assoc] at hhalf
    calc d.absValue * Binary64.one
        < 10 ^ d.magnitude * Binary64.one :=
          mul_lt_mul_of_pos_right (absValue_bounds hzero).2 Binary64.one_pos
      _ ≤ 10 ^ (-331 : ℤ) * Binary64.one :=
          mul_le_mul_of_nonneg_right (zpow_le_zpow_right₀ (by norm_num) hmagnitude)
            Binary64.one_pos.le
      _ < 1 / 2 := (lt_div_iff₀ two_pos).mpr hhalf

/-- The values that the reader takes for too large are beyond every double. -/
lemma limit_le_absValue {d : Decimal} (hne : d.coefficient ≠ 0) (h : 310 < d.magnitude) :
    ((twoPow 1024 : ℕ) : ℚ) ≤ d.absValue :=
  calc ((twoPow 1024 : ℕ) : ℚ) ≤ (tenPow 310 : ℕ) := Nat.cast_le.mpr (by decide +kernel)
    _ = 10 ^ (310 : ℤ) := cast_tenPow 310
    _ ≤ 10 ^ (d.magnitude - 1) := zpow_le_zpow_right₀ (by norm_num) (by omega)
    _ ≤ d.absValue := (absValue_bounds hne).1

/-- **Reading rounds the exact value.**  The shortcuts for values out of range do not show. -/
theorem toBinary64?_eq_round? (d : Decimal) :
    d.toBinary64? = Binary64.round? d.negative d.absValue := by
  rw [toBinary64?]
  split
  · next hsmall =>
    exact (Binary64.round?_of_lt_half d.absValue_nonneg (absValue_lt_half hsmall)).symm
  · next hcoefficient =>
    rw [not_or] at hcoefficient
    split
    · next hlarge => exact (Binary64.round?_eq_none (limit_le_absValue hcoefficient.1 hlarge)).symm
    · rw [Binary64.ofRatio?_eq_round? _ _ (tenPow_pos _), Nat.cast_mul, mul_div_assoc,
        tenPow_quotient, absValue]

end Decimal

end EventPayload
