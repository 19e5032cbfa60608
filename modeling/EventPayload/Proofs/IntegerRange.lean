import EventPayload.Proofs.NumericTexts

/-!
# The range of integers

Whatever is turned into an integer must fit into sixty-four bits with sign.  This file says for
which values that is kept, and what becomes of those that denote something out of range.

* `narrow_towardsZero_iff` — the range before truncation.
* `Coercion.toInteger_double_of_wide`, `Coercion.toInteger_text_of_wide` — doubles out of range
  yield nothing; neither do texts, up to the rounding of what lies just below the least integer.
* `Coercion.toInteger_range` — **the range is kept for all values but integers**, which stay as they
  are: `toInteger_keeps_wide` is one that should not.
-/

namespace EventPayload

/-! ## The range of truncation -/

lemma narrow_towardsZero_iff (r : ℚ) :
    Narrow (towardsZero r) ↔ -(twoPow 63 : ℚ) - 1 < r ∧ r < twoPow 63 := by
  have hlimit : (0 : ℚ) < twoPow 63 := by exact_mod_cast twoPow_pos 63
  have hupper : ((twoPow 63 : ℤ) : ℚ) = twoPow 63 := Int.cast_natCast _
  have hlower : ((-(twoPow 63 : ℤ) - 1 : ℤ) : ℚ) = -(twoPow 63 : ℚ) - 1 := by push_cast; rfl
  rw [Narrow, ← Int.sub_one_lt_iff, towardsZero]
  split
  · next hr =>
    have hfloor : (0 : ℤ) ≤ ⌊r⌋ := Int.floor_nonneg.mpr hr
    rw [Int.floor_lt, hupper]
    have hpos : (0 : ℤ) < twoPow 63 := by exact_mod_cast twoPow_pos 63
    exact and_congr_left fun _ => ⟨fun _ => by linarith, fun _ => by omega⟩
  · next hr =>
    have hceil : ⌈r⌉ ≤ (0 : ℤ) := Int.ceil_le.mpr (by push_cast; linarith)
    rw [Int.lt_ceil, hlower]
    have hpos : (0 : ℤ) < twoPow 63 := by exact_mod_cast twoPow_pos 63
    exact and_congr_right fun _ => ⟨fun _ => by linarith, fun _ => by omega⟩

namespace Coercion

lemma toInteger_double (x : Binary64) :
    toInteger (.num (.double x)) = (narrow? (towardsZero x.value)).map .num := by
  rw [toInteger, truncated?_finite, x.truncate_eq_towardsZero]

lemma toInteger_double_of_wide {x : Binary64} (h : ¬ Narrow (towardsZero x.value)) :
    toInteger (.num (.double x)) = none := by
  rw [toInteger_double, narrow?_of_not_narrow h, Option.map_none]

/-- The doubles at the end of the range lie `2048` apart. -/
lemma round?_above_limit {negative : Bool} {q : ℚ} {x : Binary64} (hq : (twoPow 63 : ℚ) ≤ q)
    (h : Binary64.round? negative q = some x) :
    (q ≤ twoPow 63 + 1024 → |x.value| = twoPow 63) ∧
      (twoPow 63 + 1024 < q → (twoPow 63 + 2048 : ℚ) ≤ |x.value|) := by
  have habove := Binary64.round?_above_power (k := 10) hq h
  have hhalf : ((twoPow 10 : ℕ) : ℚ) = 1024 := rfl
  have hstep : ((twoPow (10 + 1) : ℕ) : ℚ) = 2048 := rfl
  rwa [hhalf, hstep] at habove

lemma exists_integer_of_narrow? {n : ℤ} {m : Number} (h : narrow? n = some m) :
    ∃ w : WideInteger, m = .integer w ∧ Narrow w.value := by
  rcases narrow?_cases n with ⟨w, hw, hnarrow, hsome⟩ | ⟨-, hnone⟩
  · rw [hsome] at h
    exact ⟨w, (Option.some.inj h).symm, hw ▸ hnarrow⟩
  · rw [hnone] at h
    cases h

lemma exists_integer_of_truncated? {d : Datum} {m : Number} (h : truncated? d = some m) :
    ∃ w : WideInteger, m = .integer w ∧ Narrow w.value := by
  cases d with
  | finite x =>
    rw [truncated?_finite] at h
    exact exists_integer_of_narrow? h
  | _ => cases h

/-- What comes out is an integer in range, or went in as it is. -/
lemma exists_integer_of_toInteger {v w : Json} (h : toInteger v = some w) :
    ∃ n : WideInteger, w = .num (.integer n) ∧ (Narrow n.value ∨ v = w) := by
  cases v with
  | num m =>
    cases m with
    | integer n => exact ⟨n, (Option.some.inj h).symm, .inr (Option.some.inj h)⟩
    | double x =>
      rw [toInteger] at h
      obtain ⟨m, hm, rfl⟩ := Option.map_eq_some_iff.mp h
      obtain ⟨n, rfl, hn⟩ := exists_integer_of_truncated? hm
      exact ⟨n, rfl, .inl hn⟩
  | str s =>
    simp only [toInteger] at h
    split at h
    · next m hm =>
      obtain ⟨value, -, hvalue⟩ := Option.bind_eq_some_iff.mp hm
      obtain ⟨n, rfl, hn⟩ := exists_integer_of_narrow? hvalue
      exact ⟨n, (Option.some.inj h).symm, .inl hn⟩
    · obtain ⟨m, hm, rfl⟩ := Option.map_eq_some_iff.mp h
      obtain ⟨d, -, hd⟩ := Option.bind_eq_some_iff.mp hm
      obtain ⟨n, rfl, hn⟩ := exists_integer_of_truncated? hd
      exact ⟨n, rfl, .inl hn⟩
  | _ => simp [toInteger] at h

/-- What is rounded beyond the range yields nothing; only the least integer can be reached by
rounding from outside, up to half a step below it. -/
lemma toInteger_round?_of_wide {negative : Bool} {q : ℚ} (hq : (twoPow 63 : ℚ) ≤ q) :
    (Binary64.round? negative q).bind (fun x => toInteger (.num (.double x)))
      = if negative ∧ q ≤ twoPow 63 + 1024 then some (.num (.integer leastInteger)) else none := by
  have hhalf_le : (1024 : ℚ) ≤ twoPow 63 := by exact_mod_cast (show 1024 ≤ twoPow 63 by decide)
  have hnonneg : 0 ≤ q := by linarith
  cases hround : Binary64.round? negative q with
  | none =>
    -- the double `2 ^ 64` is far beyond, and not rounded away
    obtain ⟨y, -, hy⟩ := Binary64.exists_value_eq negative (show 2 ≤ 2 ^ 53 by decide)
      (show 63 ≤ 970 by decide)
    have hbeyond := Binary64.lt_of_round?_eq_none hnonneg hround y
    rw [hy, Nat.cast_mul, Nat.cast_ofNat] at hbeyond
    rw [Option.bind_none, if_neg]
    rintro ⟨-, hle⟩
    linarith
  | some x =>
    obtain ⟨hnegative, -⟩ := (Binary64.round?_eq_some_iff hnonneg).mp hround
    obtain ⟨hlimit, hbeyond⟩ := round?_above_limit hq hround
    have hvalue := x.value_eq_abs
    rw [hnegative] at hvalue
    rw [Option.bind_some]
    by_cases hleast : negative ∧ q ≤ twoPow 63 + 1024
    · have hsame : x.value = (leastInteger.value : ℚ) := by
        rw [hvalue, if_pos hleast.1, hlimit hleast.2, leastInteger, Int.cast_neg, Int.cast_natCast]
      rw [if_pos hleast, toInteger_double, hsame, towardsZero_intCast,
        narrow?_value leastInteger (by decide), Option.map_some]
    · rw [if_neg hleast]
      refine toInteger_double_of_wide ?_
      rw [narrow_towardsZero_iff, hvalue]
      cases negative with
      | true =>
        have habove := hbeyond (not_le.mp fun hle => hleast ⟨rfl, hle⟩)
        rintro ⟨hlower, -⟩
        rw [if_pos rfl] at hlower
        linarith
      | false =>
        rintro ⟨-, hupper⟩
        rw [if_neg Bool.false_ne_true] at hupper
        rcases le_or_gt q (twoPow 63 + 1024) with hle | hlt
        · exact hupper.ne (hlimit hle)
        · linarith [hbeyond hlt]

/-- **Numeric texts out of range** yield nothing, except that what is rounded to the least integer
yields that. -/
lemma toInteger_text_of_wide {s : String} {numeral : Numeral}
    (h : numeral.Spells (Text.trimChars s.toList)) (hloose : numeral.IsLoose)
    (hwide : ¬ Narrow (towardsZero numeral.value)) :
    toInteger (.str s) = if -(twoPow 63 + 1024 : ℚ) ≤ numeral.value ∧ numeral.value < 0
      then some (.num (.integer leastInteger)) else none := by
  have hlimit : (0 : ℚ) < twoPow 63 := by exact_mod_cast twoPow_pos 63
  have hnonneg := numeral.magnitude_nonneg
  rcases read_cases h hloose with ⟨w, -, hvalue, hw, -⟩ | ⟨-, hinteger, -⟩
  · rw [hvalue, towardsZero_intCast] at hwide
    exact absurd ⟨w.lower, hw⟩ hwide
  · have hlarge : (twoPow 63 : ℚ) ≤ numeral.magnitude := by
      rw [narrow_towardsZero_iff, not_and_or, not_lt, not_lt, Numeral.value] at hwide
      split at hwide <;> rcases hwide with hbelow | habove <;> linarith
    rw [hinteger, toInteger_round?_of_wide hlarge]
    refine if_congr ?_ rfl rfl
    rw [decide_eq_true_eq, Numeral.value]
    split
    · next hsign =>
      exact ⟨fun hle => ⟨by linarith [hle.2], by linarith⟩, fun hle => ⟨hsign, by linarith [hle.1]⟩⟩
    · next hsign => exact ⟨fun hle => absurd hle.1 hsign, fun hle => by linarith [hle.2]⟩

/-- **The range of integers.**  What comes out is in range unless a wider integer went in, and what
denotes something out of range yields nothing, unless it is an integer, or a text so little below
the least integer that it is rounded to it. -/
theorem toInteger_range (v : Json) :
    ((∀ w, toInteger v = some w →
        ∃ n : WideInteger, w = .num (.integer n) ∧ Narrow n.value) ↔
      ∀ n : WideInteger, v = .num (.integer n) → Narrow n.value) ∧
    ∀ r, v.Denotes r → ¬ Narrow (towardsZero r) →
      (toInteger v = none ↔ (∀ n : WideInteger, v ≠ .num (.integer n)) ∧
        ∀ s, v = .str s → r < -(twoPow 63 + 1024 : ℚ) ∨ 0 ≤ r) := by
  constructor
  · constructor
    · rintro hrange n rfl
      obtain ⟨m, hm, hnarrow⟩ := hrange _ rfl
      obtain rfl := Number.integer.inj (Json.num.inj hm)
      exact hnarrow
    · intro hnarrow w hw
      obtain ⟨n, rfl, hn | rfl⟩ := exists_integer_of_toInteger hw
      · exact ⟨n, rfl, hn⟩
      · exact ⟨n, rfl, hnarrow n rfl⟩
  · rintro r (n | ⟨hspells, hloose⟩) hwide
    · cases n with
      | integer n => exact ⟨fun hnone => (nomatch hnone), fun h => absurd rfl (h.1 n)⟩
      | double x =>
        exact ⟨fun _ => ⟨fun n hn => (nomatch hn), fun s hs => (nomatch hs)⟩,
          fun _ => toInteger_double_of_wide hwide⟩
    · rw [toInteger_text_of_wide hspells hloose hwide]
      split
      · next hband =>
        refine ⟨fun hnone => (nomatch hnone), fun h => ?_⟩
        rcases h.2 _ rfl with hbelow | hnonneg
        · exact absurd hband.1 hbelow.not_ge
        · exact absurd hband.2 hnonneg.not_gt
      · next hband =>
        rw [not_and_or, not_le, not_lt] at hband
        exact ⟨fun _ => ⟨fun n hn => (nomatch hn), fun _ _ => hband⟩, fun _ => rfl⟩

theorem limitText_refused :
    ¬ Narrow 9223372036854775808 ∧ toInteger (.str "9223372036854775808") = none := by
  let numeral : Numeral := ⟨.none, "9223372036854775808".toList, none, none⟩
  have hwide : ¬ Narrow 9223372036854775808 := fun h => absurd h.2 (by decide)
  have hspells : numeral.Spells (Text.trimChars "9223372036854775808".toList) :=
    (Numeral.scan?_eq_some_iff _ _).mp (by decide)
  have hinteger : numeral.sign.apply (digitsValue numeral.whole) = 9223372036854775808 := by decide
  have hvalue : numeral.value = ((9223372036854775808 : ℤ) : ℚ) := by
    rw [Numeral.value_of_isInteger rfl, hinteger]
  have hdenotes : (Json.str "9223372036854775808").Denotes ((9223372036854775808 : ℤ) : ℚ) := by
    rw [← hvalue]
    exact .str hspells (by decide)
  refine ⟨hwide, ((toInteger_range _).2 _ hdenotes ?_).mpr ⟨fun n hn => (nomatch hn), ?_⟩⟩
  · rwa [towardsZero_intCast]
  · exact fun _ _ => .inr (Int.cast_nonneg (by decide))

/-- The same integer as a number is beyond the range, and stays. -/
theorem toInteger_keeps_wide :
    ∃ n : WideInteger, n.value = 9223372036854775808 ∧
      toInteger (.num (.integer n)) = some (.num (.integer n)) ∧ ¬ Narrow n.value :=
  ⟨⟨9223372036854775808, by decide, by decide⟩, rfl, rfl, fun h => absurd h.2 (by decide)⟩

end Coercion

end EventPayload
