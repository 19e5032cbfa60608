import EventPayload.Proofs.Numerals
import EventPayload.Proofs.Trimming
import EventPayload.Proofs.WholeParts

/-!
# Numeric texts

A text is read as the integer that it spells if that takes sixty-four bits with sign, and otherwise
as the double nearest to its numeral.  This file says what the two readings have in common.

* `Numeral.Spells.not_blank` — no numeral has blanks in it, so that trimming keeps it.
* `Number.value`, `Narrow` — exact values, and the integers of sixty-four bits with sign.
* `Coercion.read_cases` — **a numeric text is read exactly or to the nearest double**.
* `Coercion.integerLiteral_read` — integers in range are read exactly, whatever zeros, sign and
  blanks there are, so integers come back from their own text.
* `Coercion.smallInteger_read` — up to `2 ^ 53` the two readings agree, however an integer is
  spelled.
-/

namespace EventPayload

/-! ## Blanks around a numeral -/

namespace Text

lemma not_blank_of_isDigit {c : Char} (h : c.isDigit) : blank c = false := by
  simp only [Char.isDigit, Bool.and_eq_true, decide_eq_true_eq] at h
  have hge : '0'.toNat ≤ c.toNat := h.1
  have hle : c.toNat ≤ '9'.toNat := h.2
  simp only [Char.reduceToNat] at hge hle
  simp [blank, blanks]
  omega

end Text

lemma Sign.not_blank (sign : Sign) : ∀ c ∈ sign.chars, Text.blank c = false := by
  cases sign with
  | none => exact List.forall_mem_nil _
  | plus => exact List.forall_mem_singleton.mpr rfl
  | minus => exact List.forall_mem_singleton.mpr rfl

namespace Numeral

variable {n : Numeral} {cs : List Char}

lemma Spells.not_blank (h : n.Spells cs) : ∀ c ∈ cs, Text.blank c = false := by
  obtain ⟨hwhole, hfraction, hexponent, mark, hmark, rfl⟩ := h
  rw [chars, List.forall_mem_append, List.forall_mem_append, List.forall_mem_append]
  refine ⟨n.sign.not_blank, fun c hc => Text.not_blank_of_isDigit (hwhole c hc), ?_, ?_⟩
  · cases hn : n.fraction with
    | none => exact List.forall_mem_nil _
    | some digits =>
      rw [fractionDigits, hn] at hfraction
      exact List.forall_mem_cons.mpr
        ⟨by decide, fun c hc => Text.not_blank_of_isDigit (hfraction c hc)⟩
  · cases hn : n.exponent with
    | none => exact List.forall_mem_nil _
    | some e =>
      refine List.forall_mem_cons.mpr ⟨?_, List.forall_mem_append.mpr ⟨e.1.not_blank, ?_⟩⟩
      · rcases hmark with rfl | rfl <;> decide
      · exact fun c hc => Text.not_blank_of_isDigit (hexponent e hn c hc)

/-- A text that spells a numeral has no blanks to be taken off. -/
lemma Spells.trimmed (h : n.Spells cs) : n.Spells (Text.trimChars (String.ofList cs).toList) := by
  rw [String.toList_ofList, Text.trimChars_eq_self (.of_forall h.not_blank)]
  exact h

end Numeral

/-! ## Values -/

/-- **The exact value of a number.** -/
def Number.value : Number → ℚ
  | integer n => n.value
  | double x => x.value

/-- **What a number or a numeric text denotes**, exactly. -/
inductive Json.Denotes : Json → ℚ → Prop
  | num (n : Number) : Denotes (.num n) n.value
  | str {s : String} {numeral : Numeral} : numeral.Spells (Text.trimChars s.toList) →
      numeral.IsLoose → Denotes (.str s) numeral.value

/-- **The integers of sixty-four bits with sign.** -/
def Narrow (n : ℤ) : Prop :=
  -(twoPow 63 : ℤ) ≤ n ∧ n < twoPow 63

namespace Coercion

lemma narrow?_of_not_narrow {n : ℤ} (h : ¬ Narrow n) : narrow? n = none :=
  dif_neg h

lemma narrow?_value (n : WideInteger) (h : n.value < twoPow 63) :
    narrow? n.value = some (.integer n) :=
  dif_pos ⟨n.lower, h⟩

lemma narrow?_cases (n : ℤ) :
    (∃ w : WideInteger, w.value = n ∧ Narrow n ∧ narrow? n = some (.integer w)) ∨
      (¬ Narrow n ∧ narrow? n = none) := by
  by_cases h : Narrow n
  · exact .inl ⟨⟨n, h.1, h.2.trans (by decide)⟩, rfl, h, dif_pos h⟩
  · exact .inr ⟨h, narrow?_of_not_narrow h⟩

/-- The least integer of sixty-four bits with sign. -/
def leastInteger : WideInteger :=
  ⟨-(twoPow 63 : ℤ), le_rfl, by decide⟩

/-! ## The two readings -/

section Read

variable {s : String} {numeral : Numeral} {cs : List Char}

lemma exactInteger?_of_spells (h : numeral.Spells cs) (hloose : numeral.IsLoose) :
    exactInteger? cs = if numeral.isInteger
      then narrow? (numeral.sign.apply (digitsValue numeral.whole)) else none := by
  rw [exactInteger?, Numeral.integer?_of_spells h hloose]
  split <;> rfl

/-- A numeral stands for its nearest double, or for an infinity if there is none. -/
lemma read?_of_spells (h : numeral.Spells cs) (hloose : numeral.IsLoose) :
    Datum.read? cs = some (.ofNearest (numeral.sign = .minus)
      (Binary64.round? (numeral.sign = .minus) numeral.magnitude)) := by
  have hnearest := Decimal.toBinary64?_eq_round? numeral.toDecimal
  rw [Decimal.absValue_toDecimal] at hnearest
  rw [Datum.read?, (Numeral.scan?_eq_some_iff cs numeral).mpr h]
  show (if numeral.IsLoose then some (Datum.ofDecimal numeral.toDecimal) else none) = _
  rw [if_pos hloose, Datum.ofDecimal, hnearest]
  rfl

/-- What is not read exactly is read to the nearest double.  That double is a variable here, since
nothing is to be computed from the way it is found. -/
lemma read_nearest {negative : Bool} {nearest : Option Binary64}
    (hexact : exactInteger? (Text.trimChars s.toList) = none)
    (hread : Datum.read? (Text.trimChars s.toList) = some (.ofNearest negative nearest)) :
    toInteger (.str s) = nearest.bind (fun x => toInteger (.num (.double x))) ∧
      toNumber (.str s) = nearest.map fun x => .num (.double x) := by
  simp only [toInteger, toNumber, hexact, hread, Option.bind_some]
  cases nearest with
  | none => exact ⟨rfl, rfl⟩
  | some x => exact ⟨rfl, rfl⟩

/-- **A numeric text is read exactly or to the nearest double**: exactly if it is an integer in
range. -/
lemma read_cases (h : numeral.Spells (Text.trimChars s.toList)) (hloose : numeral.IsLoose) :
    (∃ w : WideInteger, numeral.isInteger ∧ numeral.value = w.value ∧ w.value < twoPow 63 ∧
      toInteger (.str s) = some (.num (.integer w)) ∧
      toNumber (.str s) = some (.num (.integer w))) ∨
    ((numeral.isInteger → ∀ n : ℤ, numeral.value = n → ¬ Narrow n) ∧
      toInteger (.str s) = (Binary64.round? (numeral.sign = .minus) numeral.magnitude).bind
        (fun x => toInteger (.num (.double x))) ∧
      toNumber (.str s) = (Binary64.round? (numeral.sign = .minus) numeral.magnitude).map
        fun x => .num (.double x)) := by
  have hexact := exactInteger?_of_spells h hloose
  by_cases hinteger : numeral.isInteger
  · rw [if_pos hinteger] at hexact
    have hvalue := Numeral.value_of_isInteger hinteger
    rcases narrow?_cases (numeral.sign.apply (digitsValue numeral.whole)) with
      ⟨w, hw, hnarrow, hsome⟩ | ⟨hwide, hnone⟩
    · rw [hsome] at hexact
      refine .inl ⟨w, hinteger, by rw [hvalue, hw], by rw [hw]; exact hnarrow.2, ?_, ?_⟩
      · simp only [toInteger, hexact]
      · simp only [toNumber, hexact]
    · rw [hnone] at hexact
      refine .inr ⟨fun _ n hn => ?_, read_nearest hexact (read?_of_spells h hloose)⟩
      have hsame : numeral.sign.apply (digitsValue numeral.whole) = n := by
        exact_mod_cast hvalue.symm.trans hn
      rwa [← hsame]
  · rw [if_neg hinteger] at hexact
    exact .inr ⟨fun h => absurd h hinteger, read_nearest hexact (read?_of_spells h hloose)⟩

/-- A text that spells an integer in range. -/
lemma read_integer (n : WideInteger) (hn : n.value < twoPow 63)
    (h : integer? (Text.trimChars s.toList) = some n.value) :
    toInteger (.str s) = some (.num (.integer n)) ∧
      toNumber (.str s) = some (.num (.integer n)) := by
  have hexact : exactInteger? (Text.trimChars s.toList) = some (.integer n) := by
    rw [exactInteger?, h, Option.bind_some, narrow?_value n hn]
  constructor
  · simp only [toInteger, hexact]
  · simp only [toNumber, hexact]

end Read

/-! ## Integer literals -/

/-- The numeral that the text of an integer spells. -/
def integerNumeral (n : ℤ) : Numeral :=
  ⟨if n < 0 then .minus else .none, Nat.toDigits 10 n.natAbs, none, none⟩

lemma integerChars_eq (n : ℤ) :
    Number.integerChars n = (integerNumeral n).sign.chars ++ (integerNumeral n).whole := by
  rw [Number.integerChars, integerNumeral]
  split <;> rfl

lemma integerNumeral_apply (n : ℤ) :
    (integerNumeral n).sign.apply (digitsValue (integerNumeral n).whole) = n := by
  rw [integerNumeral, digitsValue_toDigits, Sign.apply]
  split_ifs <;> first | omega | contradiction

lemma integerNumeral_spells (n : ℤ) : (integerNumeral n).Spells (Number.integerChars n) := by
  rw [integerChars_eq]
  exact Numeral.spells_integer _ fun _ => isDigit_of_mem_toDigits

lemma integerNumeral_isLoose (n : ℤ) : (integerNumeral n).IsLoose :=
  ⟨.inl Nat.toDigits_ne_nil, rfl⟩

lemma value_integerNumeral (n : ℤ) : (integerNumeral n).value = n := by
  rw [Numeral.value_of_isInteger rfl, integerNumeral_apply]

lemma integer?_integerChars (n : ℤ) : integer? (Number.integerChars n) = some n := by
  have hinteger : (integerNumeral n).isInteger := rfl
  rw [Numeral.integer?_of_spells (integerNumeral_spells n) (integerNumeral_isLoose n),
    if_pos hinteger, integerNumeral_apply]

/-- **Integer literals in range are read exactly**, with any zeros in front, any sign and any blanks
around them; so an integer comes back from its own text. -/
theorem integerLiteral_read (n : WideInteger) (hn : n.value < twoPow 63) :
    (∀ (s : String) (sign : Sign) (digits : List Char),
      Text.trimChars s.toList = sign.chars ++ digits → digits ≠ [] → (∀ c ∈ digits, c.isDigit) →
      sign.apply (digitsValue digits) = n.value →
        toInteger (.str s) = some (.num (.integer n)) ∧
          toNumber (.str s) = some (.num (.integer n))) ∧
    ∃ t : String, toText (.num (.integer n)) = some (.str t) ∧
      ∀ before after : String, Text.isBlank before → Text.isBlank after →
        toInteger (.str (before ++ t ++ after)) = some (.num (.integer n)) ∧
          toNumber (.str (before ++ t ++ after)) = some (.num (.integer n)) := by
  constructor
  · intro s sign digits htext hne hdigits hvalue
    exact read_integer n hn
      ((integer?_eq_some_iff _ _).mpr ⟨sign, digits, htext, hne, hdigits, hvalue.symm⟩)
  · refine ⟨String.ofList (Number.integerChars n.value), rfl,
      fun before after hbefore hafter => read_integer n hn ?_⟩
    rw [String.toList_append, String.toList_append, String.toList_ofList,
      Text.trimChars_append (List.all_eq_true.mp hbefore)
        (.of_forall (integerNumeral_spells n.value).not_blank) (List.all_eq_true.mp hafter)]
    exact integer?_integerChars n.value

theorem leastInteger_read :
    leastInteger.value < twoPow 63 ∧
      toInteger (.str "\t-009223372036854775808 ") = some (.num (.integer leastInteger)) ∧
      toNumber (.str "\t-009223372036854775808 ") = some (.num (.integer leastInteger)) := by
  have hn : leastInteger.value < twoPow 63 := by decide
  exact ⟨hn, (integerLiteral_read leastInteger hn).1 "\t-009223372036854775808 " .minus
    "009223372036854775808".toList (by decide) (by decide) (List.all_eq_true.mp (by decide))
    (by decide)⟩

/-! ## Small integers -/

/-- **Up to `2 ^ 53` the two readings agree**: an integer of that size is a double, so however it is
spelled, its value is not rounded. -/
theorem smallInteger_read {s : String} {numeral : Numeral} {n : ℤ}
    (h : numeral.Spells (Text.trimChars s.toList)) (hloose : numeral.IsLoose)
    (hvalue : numeral.value = n) (hn : |n| ≤ 2 ^ 53) :
    (∃ w : WideInteger, w.value = n ∧ toInteger (.str s) = some (.num (.integer w))) ∧
      ∃ m : Number, m.value = n ∧ toNumber (.str s) = some (.num m) := by
  rcases read_cases h hloose with ⟨w, -, hw, -, hinteger, hnumber⟩ | ⟨-, hinteger, hnumber⟩
  · rw [hvalue] at hw
    exact ⟨⟨w, by exact_mod_cast hw.symm, hinteger⟩, .integer w, hw.symm, hnumber⟩
  · obtain ⟨hlower, hupper⟩ := abs_le.mp hn
    have hsize : n.natAbs ≤ 2 ^ 53 := by omega
    obtain ⟨x, hsign, hx⟩ :=
      Binary64.exists_value_eq (numeral.sign = .minus) hsize (Nat.zero_le 970)
    have hmagnitude : |x.value| = numeral.magnitude := by
      rw [hx, ← numeral.abs_value, hvalue, twoPow_zero, Nat.mul_one, Nat.cast_natAbs, Int.cast_abs]
    obtain ⟨hround, hsame⟩ := Numeral.round?_of_abs_value hsign hmagnitude
    have htruncate : x.truncate = n := by
      rw [x.truncate_eq_towardsZero, hsame, hvalue, towardsZero_intCast]
    have hnarrow : Narrow x.truncate := by
      rw [htruncate, Narrow, twoPow_eq]
      omega
    rw [hround] at hinteger hnumber
    refine ⟨?_, .double x, hsame.trans hvalue, hnumber⟩
    rcases narrow?_cases x.truncate with ⟨w, hw, -, hsome⟩ | ⟨hwide, -⟩
    · refine ⟨w, hw.trans htruncate, ?_⟩
      rw [hinteger, Option.bind_some, toInteger, truncated?_finite, hsome, Option.map_some]
    · exact absurd hnarrow hwide

theorem thousand_read :
    (∃ w : WideInteger, w.value = 1000 ∧
      toInteger (.str " 10000e-1") = some (.num (.integer w))) ∧
      ∃ m : Number, m.value = 1000 ∧ toNumber (.str " 10000e-1") = some (.num m) := by
  let numeral : Numeral := ⟨.none, ['1', '0', '0', '0', '0'], none, some (.minus, ['1'])⟩
  have hspells : numeral.Spells (Text.trimChars " 10000e-1".toList) :=
    (Numeral.scan?_eq_some_iff _ _).mp (by decide)
  have hwhole : digitsValue ['1', '0', '0', '0', '0'] = 10000 := by decide
  have hpower : numeral.power = -1 := by decide
  have hvalue : numeral.value = (1000 : ℤ) := by
    rw [Numeral.value, if_neg (by decide), Numeral.magnitude, hpower, hwhole]
    norm_num [Numeral.fractionDigits, digitsValue, numeral]
  exact_mod_cast smallInteger_read hspells (by decide) hvalue (by decide)

end Coercion

end EventPayload
