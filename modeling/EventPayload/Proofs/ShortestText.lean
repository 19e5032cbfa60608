import EventPayload.Number.Layout
import EventPayload.Proofs.Numerals
import Mathlib.Data.List.DropRight

/-!
# The text of a double reads back

The digits of a double are chosen among the decimals that read back as it, and the plain layout
writes those digits in full.  This file follows a double from its value through its digits to its
text.

* `Digits.Canonical` — digits without zeros at the end; if their value is an integer, none of them
  stands behind the point (`Canonical.length_le`).
* `Binary64.round?_shortest` — **the shortest digits have the double as their nearest**, whichever
  candidate they came from.
* `Digits.plainNumeral` — the numeral that plain notation spells, of the same value.
* `Binary64.numeral` — the numeral that the text of a double spells (`plain_write_spells`).
-/

namespace EventPayload.Binary64

/-! ## Digits without zeros at the end -/

namespace Digits

/-- The exact value of digits. -/
def value (d : Digits) : ℚ :=
  digitsValue d.digits * 10 ^ (d.leading + 1 - d.digits.length)

/-- **Digits, the last of which is not zero.** -/
structure Canonical (d : Digits) : Prop where
  digit : ∀ c ∈ d.digits, c.isDigit
  last : ∀ h : d.digits ≠ [], d.digits.getLast h ≠ '0'

/-- The zeros at the end that are left out. -/
lemma digits_ofCoefficient (coefficient : Nat) (k : ℤ) :
    ∃ zeros, Nat.toDigits 10 coefficient
      = (ofCoefficient coefficient k).digits ++ List.replicate zeros '0' := by
  have hsplit : (ofCoefficient coefficient k).digits
      ++ (Nat.toDigits 10 coefficient).rtakeWhile (· = '0') = Nat.toDigits 10 coefficient :=
    List.rdropWhile_append_rtakeWhile
  have hzeros : ∀ c ∈ (Nat.toDigits 10 coefficient).rtakeWhile (· = '0'), c = '0' :=
    fun c hc => of_decide_eq_true (List.mem_rtakeWhile_imp (p := (· = '0')) hc)
  rw [List.eq_replicate_of_mem hzeros] at hsplit
  exact ⟨_, hsplit.symm⟩

lemma canonical_ofCoefficient (coefficient : Nat) (k : ℤ) :
    (ofCoefficient coefficient k).Canonical := by
  constructor
  · intro c hc
    obtain ⟨zeros, hdigits⟩ := digits_ofCoefficient coefficient k
    refine isDigit_of_mem_toDigits (n := coefficient) ?_
    rw [hdigits]
    exact List.mem_append_left _ hc
  · intro h hzero
    exact List.rdropWhile_last_not _ (Nat.toDigits 10 coefficient) h (decide_eq_true hzero)

lemma value_ofCoefficient (coefficient : Nat) (k : ℤ) :
    (ofCoefficient coefficient k).value = coefficient * 10 ^ k := by
  have hten : (10 : ℚ) ≠ 0 := by norm_num
  obtain ⟨zeros, hdigits⟩ := digits_ofCoefficient coefficient k
  have hleading : (ofCoefficient coefficient k).leading
      = k + (Nat.toDigits 10 coefficient).length - 1 := rfl
  have hcoefficient := digitsValue_toDigits coefficient
  rw [value, hleading]
  generalize (ofCoefficient coefficient k).digits = digits at *
  rw [hdigits, digitsValue_append, digitsValue_replicate_zero, List.length_replicate,
    Nat.add_zero] at hcoefficient
  have hplace : k + (Nat.toDigits 10 coefficient).length - 1 + 1 - digits.length = zeros + k := by
    rw [hdigits, List.length_append, List.length_replicate]
    omega
  rw [hplace, ← hcoefficient, zpow_add₀ hten, zpow_natCast]
  push_cast
  ring

variable {d : Digits}

/-- **Digits of an integer value** end before the point. -/
lemma Canonical.length_le (h : d.Canonical) (hne : d.digits ≠ []) {n : ℕ} (hn : d.value = n) :
    (d.digits.length : ℤ) ≤ d.leading + 1 := by
  by_contra hlt
  -- otherwise there are places behind the point, and the digit in the last of them would be zero
  obtain ⟨places, hplaces⟩ : ∃ places : ℕ, d.leading + 1 - d.digits.length = -(places + 1 : ℕ) :=
    ⟨(d.digits.length - (d.leading + 1) - 1).toNat, by omega⟩
  have hvalue : digitsValue d.digits = n * 10 ^ (places + 1) := by
    have hpower : (10 : ℚ) ^ (places + 1) ≠ 0 := pow_ne_zero _ (by norm_num)
    rw [value, hplaces, zpow_neg, zpow_natCast, ← div_eq_mul_inv, div_eq_iff hpower] at hn
    exact_mod_cast hn
  have hten : digitsValue d.digits % 10 = 0 := by
    rw [hvalue, Nat.pow_succ, ← Nat.mul_assoc, Nat.mul_mod_left]
  obtain ⟨hnine, hzero⟩ := digitsValue_singleton (h.digit _ (List.getLast_mem hne))
  rw [← List.dropLast_append_getLast hne, digitsValue_append, List.length_singleton] at hten
  exact h.last hne (hzero (by omega))

end Digits

/-! ## The shortest digits -/

variable {x : Binary64}

lemma round?_of_readsBack {coefficient : Nat} {k : ℤ} (h : x.readsBack coefficient k) :
    round? x.negative (coefficient * 10 ^ k) = some x := by
  rw [readsBack] at h
  rw [← Decimal.tenPow_quotient, ← mul_div_assoc, ← Nat.cast_mul,
    ← ofRatio?_eq_round? _ _ (tenPow_pos _), ofRatio?, of_decide_eq_true h]
  exact dif_pos x.code_lt

/-- A candidate reads back. -/
lemma readsBack_of_candidate? {tie : Tie} {n coefficient : Nat} {k : ℤ}
    (h : candidate? tie x n = some (coefficient, k)) : x.readsBack coefficient k := by
  unfold candidate? at h
  extract_lets place num den lower upper at h
  split at h
  · next hlower =>
    obtain ⟨rfl, rfl⟩ := Prod.mk.inj (Option.some.inj h)
    exact (Bool.and_eq_true_iff.mp hlower).1
  · split at h
    · next hupper =>
      obtain ⟨rfl, rfl⟩ := Prod.mk.inj (Option.some.inj h)
      exact hupper
    · cases h

/-- The expansion is exact. -/
lemma value_expansion (x : Binary64) :
    (x.expansion.1 : ℚ) * 10 ^ x.expansion.2 = |x.value| := by
  have hwhole : tenPow 1074 / one * one = tenPow 1074 := by decide +kernel
  have hone := one_pos.ne'
  have hten := (zpow_pos (a := (10 : ℚ)) (by norm_num) ((1074 : ℕ) : ℤ)).ne'
  have hfactor : ((tenPow 1074 / one : ℕ) : ℚ) = 10 ^ ((1074 : ℕ) : ℤ) / one := by
    rw [eq_div_iff hone, ← Nat.cast_mul, hwhole, Decimal.cast_tenPow]
  have hplace : x.expansion.2 = -((1074 : ℕ) : ℤ) := rfl
  rw [hplace, expansion, Nat.cast_mul, hfactor, abs_value, zpow_neg]
  generalize (10 : ℚ) ^ ((1074 : ℕ) : ℤ) = power at *
  field_simp

lemma round?_decimal (tie : Tie) (x : Binary64) :
    round? x.negative ((x.decimal tie).1 * 10 ^ (x.decimal tie).2) = some x := by
  rw [decimal]
  cases hfound : (List.range 17).findSome? fun i => candidate? tie x (i + 1) with
  | none =>
    rw [Option.getD_none, value_expansion]
    exact round?_abs_value x
  | some found =>
    obtain ⟨i, -, hi⟩ := List.exists_of_findSome?_eq_some hfound
    exact round?_of_readsBack (readsBack_of_candidate? hi)

/-- **The shortest digits have the double as their nearest.** -/
theorem round?_shortest (tie : Tie) (x : Binary64) :
    round? x.negative (x.shortest tie).value = some x := by
  rw [shortest, Digits.value_ofCoefficient]
  exact round?_decimal tie x

lemma canonical_shortest (tie : Tie) (x : Binary64) : (x.shortest tie).Canonical :=
  Digits.canonical_ofCoefficient _ _

lemma digits_shortest_ne_nil (tie : Tie) (h : x.code ≠ 0) : (x.shortest tie).digits ≠ [] := by
  intro hnil
  have hzero : (x.shortest tie).value = 0 := by
    rw [Digits.value, hnil]
    exact zero_mul _
  have hround := round?_shortest tie x
  rw [hzero, round?_eq_some_iff le_rfl, zero_mul] at hround
  exact h (hround.2.eq_of_exact (by rw [codeUnits_zero, Nat.cast_zero]))

/-! ## Plain notation -/

namespace Digits

/-- **The numeral that plain notation spells**: zeros in front of the digits, zeros behind them, or
a point between them. -/
def plainNumeral (sign : Sign) (d : Digits) : Numeral :=
  if d.leading < 0 then
    ⟨sign, ['0'], some (List.replicate (-d.leading - 1).toNat '0' ++ d.digits), none⟩
  else if d.digits.length ≤ d.leading.toNat + 1 then
    ⟨sign, d.digits ++ List.replicate (d.leading.toNat + 1 - d.digits.length) '0', none, none⟩
  else
    ⟨sign, d.digits.take (d.leading.toNat + 1), some (d.digits.drop (d.leading.toNat + 1)), none⟩

variable {d : Digits} {sign : Sign}

lemma sign_plainNumeral : (d.plainNumeral sign).sign = sign := by
  rw [plainNumeral]
  split_ifs <;> rfl

lemma chars_plainNumeral (mark : Char) :
    (d.plainNumeral sign).chars mark
      = sign.chars ++ Layout.plain.writePlain d.digits d.leading := by
  simp only [plainNumeral, Layout.writePlain, Layout.plain, List.append_nil]
  split_ifs <;>
    simp only [Numeral.chars, Numeral.fractionChars, Numeral.exponentChars, List.append_nil,
      List.cons_append, List.nil_append]

lemma isDigit_of_mem_replicate {n : Nat} : ∀ c ∈ List.replicate n '0', c.isDigit := by
  intro c hc
  rw [List.eq_of_mem_replicate hc]
  rfl

lemma plainNumeral_spells (h : ∀ c ∈ d.digits, c.isDigit) :
    (d.plainNumeral sign).Spells (sign.chars ++ Layout.plain.writePlain d.digits d.leading) := by
  have hzero : ∀ c ∈ ['0'], c.isDigit := List.all_eq_true.mp rfl
  refine ⟨?_, ?_, ?_, 'e', .inl rfl, (chars_plainNumeral 'e').symm⟩ <;> rw [plainNumeral] <;>
    split_ifs
  · exact hzero
  · exact List.forall_mem_append.mpr ⟨h, isDigit_of_mem_replicate⟩
  · exact fun c hc => h c (List.mem_of_mem_take hc)
  · exact List.forall_mem_append.mpr ⟨isDigit_of_mem_replicate, h⟩
  · exact List.forall_mem_nil _
  · exact fun c hc => h c (List.mem_of_mem_drop hc)
  all_goals exact fun _ he => nomatch he

lemma plainNumeral_isLoose (h : d.digits ≠ []) : (d.plainNumeral sign).IsLoose := by
  refine ⟨.inl ?_, ?_⟩ <;> rw [plainNumeral] <;> split_ifs
  · exact List.cons_ne_nil _ _
  · exact List.append_ne_nil_of_left_ne_nil h _
  · rw [Ne, List.take_eq_nil_iff]
    exact fun hnil => hnil.elim (Nat.succ_ne_zero _) h
  all_goals rfl

lemma magnitude_of_plain (sign : Sign) (whole : List Char) (fraction : Option (List Char)) :
    Numeral.magnitude ⟨sign, whole, fraction, none⟩
      = digitsValue whole + digitsValue (fraction.getD []) / 10 ^ (fraction.getD []).length := by
  rw [Numeral.magnitude, Numeral.power, zpow_zero, mul_one]
  rfl

/-- **Plain notation keeps the value.** -/
lemma magnitude_plainNumeral : (d.plainNumeral sign).magnitude = d.value := by
  have hten : (10 : ℚ) ≠ 0 := by norm_num
  rw [plainNumeral, value]
  split_ifs with hnegative hwhole
  · have hplace : d.leading + 1 - d.digits.length
        = -((-d.leading - 1).toNat + d.digits.length : ℕ) := by omega
    have hzero : digitsValue ['0'] = 0 := rfl
    rw [hplace, zpow_neg, zpow_natCast, ← div_eq_mul_inv, magnitude_of_plain, Option.getD_some,
      digitsValue_append, digitsValue_replicate_zero, List.length_append, List.length_replicate,
      hzero, Nat.mul_zero, Nat.zero_add, Nat.cast_zero, zero_add]
  · have hplace : d.leading + 1 - d.digits.length
        = (d.leading.toNat + 1 - d.digits.length : ℕ) := by omega
    have hnil : digitsValue [] = 0 := rfl
    rw [hplace, zpow_natCast, magnitude_of_plain, Option.getD_none, digitsValue_append,
      digitsValue_replicate_zero, List.length_replicate, hnil, Nat.cast_zero, zero_div, add_zero,
      Nat.add_zero, Nat.cast_mul, Nat.cast_pow, Nat.cast_ofNat, mul_comm]
  · have hplace : d.leading + 1 - d.digits.length
        = -((d.digits.drop (d.leading.toNat + 1)).length : ℕ) := by
      rw [List.length_drop]
      omega
    have hdigits : digitsValue d.digits
        = 10 ^ (d.digits.drop (d.leading.toNat + 1)).length
            * digitsValue (d.digits.take (d.leading.toNat + 1))
          + digitsValue (d.digits.drop (d.leading.toNat + 1)) := by
      rw [← digitsValue_append, List.take_append_drop]
    rw [hplace, zpow_neg, zpow_natCast, hdigits, magnitude_of_plain, Option.getD_some]
    push_cast
    field_simp

lemma isInteger_plainNumeral :
    (d.plainNumeral sign).isInteger ↔ 0 ≤ d.leading ∧ (d.digits.length : ℤ) ≤ d.leading + 1 := by
  rw [plainNumeral]
  split_ifs <;> simp only [Numeral.isInteger, Option.isNone_none, Option.isNone_some,
    Bool.and_true, Bool.false_eq_true, false_iff, true_iff] <;> omega

end Digits

/-! ## The text -/

/-- **The numeral that the text of a double spells.**  There is one zero. -/
def numeral (x : Binary64) : Numeral :=
  if x.code = 0 then ⟨.none, ['0'], none, none⟩
  else (x.shortest .up).plainNumeral (if x.negative then .minus else .none)

lemma write_eq (layout : Layout) (x : Binary64) :
    layout.write x
      = (if x.negative && (x.code ≠ 0 || layout.signedZero) then Sign.minus else .none).chars
        ++ layout.writeMagnitude x := by
  rw [Layout.write]
  split
  · rfl
  · exact (List.nil_append _).symm

lemma plain_write_of_zero (h : x.code = 0) : Layout.plain.write x = ['0'] := by
  have hsign : (x.negative && (x.code ≠ 0 || Layout.plain.signedZero)) = false := by
    simp [h, Layout.plain]
  rw [write_eq, hsign, Layout.writeMagnitude, if_pos h]
  rfl

lemma plain_write_of_ne_zero (h : x.code ≠ 0) :
    Layout.plain.write x = (if x.negative then Sign.minus else .none).chars
      ++ Layout.plain.writePlain (x.shortest .up).digits (x.shortest .up).leading := by
  have hplain : ∀ leading, Layout.plain.isPlain leading = true := fun _ => rfl
  have hsign : (x.negative && (x.code ≠ 0 || Layout.plain.signedZero)) = x.negative := by
    simp [h]
  have hmagnitude : Layout.plain.writeMagnitude x
      = Layout.plain.writePlain (x.shortest .up).digits (x.shortest .up).leading := by
    rw [Layout.writeMagnitude, if_neg h]
    exact if_pos (hplain _)
  rw [write_eq, hsign, hmagnitude]

/-- **The text of a double spells its numeral.** -/
theorem plain_write_spells (x : Binary64) : x.numeral.Spells (Layout.plain.write x) := by
  rw [numeral]
  split
  · next hzero =>
    rw [plain_write_of_zero hzero]
    exact Numeral.spells_integer .none (List.all_eq_true.mp rfl)
  · next hne =>
    rw [plain_write_of_ne_zero hne]
    exact Digits.plainNumeral_spells (canonical_shortest .up x).digit

lemma numeral_isLoose (x : Binary64) : x.numeral.IsLoose := by
  rw [numeral]
  split
  · exact ⟨.inl (List.cons_ne_nil _ _), rfl⟩
  · next hne => exact Digits.plainNumeral_isLoose (digits_shortest_ne_nil .up hne)

lemma sign_numeral (h : x.code ≠ 0) : decide (x.numeral.sign = .minus) = x.negative := by
  rw [numeral, if_neg h, Digits.sign_plainNumeral]
  cases x.negative <;> rfl

lemma value_shortest_zero (negative : Bool) : ((zero negative).shortest .up).value = 0 := by
  have hdigits : ∀ negative, ((zero negative).shortest .up).digits = [] := by decide +kernel
  rw [Digits.value, hdigits]
  exact zero_mul _

lemma eq_zero_of_code (h : x.code = 0) : x = zero x.negative := by
  obtain ⟨negative, code, hlt⟩ := x
  obtain rfl : code = 0 := h
  rfl

lemma magnitude_numeral (x : Binary64) : x.numeral.magnitude = (x.shortest .up).value := by
  rw [numeral]
  split
  · next hzero =>
    have hdigit : digitsValue ['0'] = 0 := rfl
    have hnone : digitsValue [] = 0 := rfl
    rw [eq_zero_of_code hzero, value_shortest_zero, Digits.magnitude_of_plain, Option.getD_none,
      hdigit, hnone, Nat.cast_zero, zero_div, add_zero]
  · exact Digits.magnitude_plainNumeral

/-- A double whose digits have an integer value is written as an integer. -/
lemma isInteger_numeral {n : ℕ} (h : (x.shortest .up).value = n) : x.numeral.isInteger := by
  rw [numeral]
  split
  · rfl
  · next hne =>
    have hdigits := digits_shortest_ne_nil .up hne
    have hlength := (canonical_shortest .up x).length_le hdigits h
    have hpos := List.length_pos_iff.mpr hdigits
    exact Digits.isInteger_plainNumeral.mpr ⟨by omega, hlength⟩

/-- **Reading the text of a double** gives the double back. -/
theorem round?_numeral (h : x.code ≠ 0) :
    round? (x.numeral.sign = .minus) x.numeral.magnitude = some x := by
  rw [sign_numeral h, magnitude_numeral]
  exact round?_shortest .up x

end EventPayload.Binary64
