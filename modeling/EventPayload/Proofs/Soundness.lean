import EventPayload.Mapping.Basic
import EventPayload.Proofs.ByteOrder
import EventPayload.Proofs.Register
import EventPayload.Proofs.Traversal

/-!
# Which drafts can be built

A draft is checked declaration by declaration, each in view of those before it.  This file says
which drafts pass, in terms of pairs of rules only, and which defect the others are refused for.

* `ElementsLawful`, `Lawful` — **the laws**, for the rules of a list's elements and for a draft.
* `ElementDefect`, `InnerDefect`, `DeclarationDefect` — what can be wrong with an entry, in view of
  the entries before it, and in which order the reasons are looked for.
* `elementsScan`, `declarationsScan` — both checks are scans, with these laws and defects.
* `Mapping.lawful` — a mapping obeys the laws.
* `build_verdict` — the laws decide whether a draft can be built, and a draft that cannot is refused
  for its first declaration with a defect.
-/

namespace EventPayload

/-! ## The laws -/

/-- **The laws for the rules of a list's elements.** -/
structure ElementsLawful (rules : List (String × Rule)) : Prop where
  flat : ∀ entry ∈ rules, entry.2.isEach = false
  uncontested : Uncontested rules

/-- **The laws of a draft.** -/
structure Lawful (rules : List (String × Rule)) : Prop where
  distinct : Entries.Distinct rules
  uncontested : Uncontested rules
  elements : ∀ owner defaults inner, (owner, Rule.each defaults inner) ∈ rules → ElementsLawful inner

/-- What is wrong with an entry among the rules of a list's elements: it is a list itself, or else
its slot is taken. -/
inductive ElementDefect (owner : String) (earlier : List (String × Rule)) (entry : String × Rule) :
    Defect → Prop
  | nested (h : entry.2.isEach = true) : ElementDefect owner earlier entry (.nestedList owner entry.1)
  | contested {slot : Slot} {first : String} (hflat : entry.2.isEach = false)
      (hslot : declaredSlot? entry = some slot) (hrival : Rival earlier entry first) :
      ElementDefect owner earlier entry (.contested slot first entry.1)

/-- What is wrong inside a list: the first defect in the order of the names. -/
def InnerDefect (owner : String) (rules : Ruleset) (defect : Defect) : Prop :=
  ∃ before entry after, Entries.sorted rules = before ++ entry :: after ∧
    ElementsLawful before ∧ ElementDefect owner before entry defect

/-- What is wrong with a declaration: its name was used before, or else something is wrong inside
its list, or else its slot is taken. -/
inductive DeclarationDefect (earlier : List (String × Rule)) : String × Rule → Defect → Prop
  | repeated {name : String} {rule : Rule} (h : name ∈ Entries.keys earlier) :
      DeclarationDefect earlier (name, rule) (.repeatedField name)
  | inner {name : String} {defaults : Record} {rules : Ruleset} {defect : Defect}
      (hnew : name ∉ Entries.keys earlier) (hinner : InnerDefect name rules defect) :
      DeclarationDefect earlier (name, .each defaults rules) defect
  | contested {name : String} {rule : Rule} {slot : Slot} {first : String}
      (hnew : name ∉ Entries.keys earlier)
      (hinner : ∀ defaults rules, rule = .each defaults rules → ElementsLawful rules)
      (hslot : rule.slot? name = some slot) (hrival : Rival earlier (name, rule) first) :
      DeclarationDefect earlier (name, rule) (.contested slot first name)

/-! ## The rules of a list's elements -/

/-- An entry that contends with an earlier one has a rival. -/
lemma exists_rival {earlier : List (String × Rule)} {entry other : String × Rule}
    (ho : other ∈ earlier) (hc : Contend other entry) :
    ∃ slot first, declaredSlot? entry = some slot ∧ Rival earlier entry first := by
  obtain ⟨s, slot, hs, hslot, hclash⟩ := hc
  cases hfirst : firstWriter (fun own => own.Clash slot) earlier with
  | some first => exact ⟨slot, first, hslot, (rival_iff_firstWriter hslot first).mpr hfirst⟩
  | none =>
    have hno := (firstWriter_eq_none_iff _ _).mp hfirst other ho s hs
    exact absurd hclash (of_decide_eq_false hno)

lemma Rival.exists_contend {earlier : List (String × Rule)} {entry : String × Rule}
    {first : String} (h : Rival earlier entry first) : ∃ other ∈ earlier, Contend other entry := by
  obtain ⟨before, rule, after, rfl, hc, -⟩ := h
  exact ⟨(first, rule), by simp, hc⟩

lemma elementsLawful_append_singleton (owner : String) (before : List (String × Rule))
    (entry : String × Rule) :
    ElementsLawful (before ++ [entry]) ↔
      ElementsLawful before ∧ ∀ defect, ¬ ElementDefect owner before entry defect := by
  constructor
  · rintro ⟨hflat, hun⟩
    rw [uncontested_append_singleton] at hun
    refine ⟨⟨fun e he => hflat e (by simp [he]), hun.1⟩, fun defect hdefect => ?_⟩
    cases hdefect with
    | nested h => simp [hflat entry (by simp)] at h
    | contested _ _ hrival =>
      obtain ⟨other, ho, hc⟩ := hrival.exists_contend
      exact hun.2 other ho hc
  · rintro ⟨⟨hflat, hun⟩, hno⟩
    have hentry : entry.2.isEach = false := by
      by_contra h
      exact hno _ (.nested (by simpa using h))
    refine ⟨fun e he => ?_, uncontested_append_singleton.mpr ⟨hun, fun other ho hc => ?_⟩⟩
    · rcases List.mem_append.mp he with he | he
      · exact hflat e he
      · rw [List.mem_singleton.mp he, hentry]
    · obtain ⟨slot, first, hslot, hrival⟩ := exists_rival ho hc
      exact hno _ (.contested hentry hslot hrival)

theorem elementsScan (owner : String) :
    Scan (Register.claimElement owner) {} Register.Tracks ElementsLawful (ElementDefect owner) where
  knows_nil := .empty
  good_nil := ⟨by simp, List.Pairwise.nil⟩
  good_append_singleton := elementsLawful_append_singleton owner
  granted before register entry next hgood hknows hstep := by
    unfold Register.claimElement at hstep
    split at hstep
    · cases hstep
    · exact (hknows.claim_eq_ok hgood.uncontested hstep).1
  refused before register entry defect hgood hknows := by
    unfold Register.claimElement
    split
    · next heach =>
      constructor
      · intro h
        cases h
        exact .nested heach
      · intro h
        cases h with
        | nested => rfl
        | contested hflat => simp [heach] at hflat
    · next hflat =>
      rw [Bool.not_eq_true] at hflat
      rw [hknows.claim_eq_error_iff hgood.uncontested]
      constructor
      · rintro ⟨slot, first, hslot, hrival, rfl⟩
        exact .contested hflat hslot hrival
      · intro h
        cases h with
        | nested heach => simp [hflat] at heach
        | contested _ hslot hrival => exact ⟨_, _, hslot, hrival, rfl⟩

/-- The order in which the elements are checked has no say in whether they pass. -/
lemma elementsLawful_sorted (rules : Ruleset) :
    ElementsLawful (Entries.sorted rules) ↔ ElementsLawful rules := by
  have hperm := Entries.sorted_perm rules
  constructor
  · rintro ⟨hflat, hun⟩
    exact ⟨fun e he => hflat e (hperm.mem_iff.mpr he), (Uncontested.perm hperm).mp hun⟩
  · rintro ⟨hflat, hun⟩
    exact ⟨fun e he => hflat e (hperm.mem_iff.mp he), (Uncontested.perm hperm).mpr hun⟩

lemma elementRegister_eq_ok_iff (owner : String) (rules : Ruleset) :
    (∃ register, elementRegister owner rules = .ok register) ↔ ElementsLawful rules := by
  rw [← elementsLawful_sorted]
  exact (elementsScan owner).eq_ok_iff _

lemma elementRegister_eq_error_iff (owner : String) (rules : Ruleset) (defect : Defect) :
    elementRegister owner rules = .error defect ↔ InnerDefect owner rules defect :=
  (elementsScan owner).eq_error_iff _ defect

lemma innerCheck_eq_ok_iff (owner : String) (rule : Rule) :
    innerCheck owner rule = .ok () ↔
      ∀ defaults rules, rule = .each defaults rules → ElementsLawful rules := by
  cases rule with
  | each defaults rules =>
    rw [innerCheck, map_eq_ok_iff]
    constructor
    · rintro ⟨register, hregister, -⟩ _ _ ⟨⟩
      exact (elementRegister_eq_ok_iff owner rules).mp ⟨register, hregister⟩
    · intro h
      obtain ⟨register, hregister⟩ := (elementRegister_eq_ok_iff owner rules).mpr (h _ _ rfl)
      exact ⟨register, hregister, rfl⟩
  | _ => simp [innerCheck]

lemma innerCheck_eq_error_iff (owner : String) (rule : Rule) (defect : Defect) :
    innerCheck owner rule = .error defect ↔
      ∃ defaults rules, rule = .each defaults rules ∧ InnerDefect owner rules defect := by
  cases rule with
  | each defaults rules =>
    rw [innerCheck, map_eq_error_iff, elementRegister_eq_error_iff]
    constructor
    · intro h
      exact ⟨defaults, rules, rfl, h⟩
    · rintro ⟨_, _, ⟨⟩, h⟩
      exact h
  | _ => simp [innerCheck]

/-! ## Declarations -/

lemma Accepted.declare_eq_ok_iff (accepted next : Accepted) (entry : String × Rule) :
    accepted.declare entry = .ok next ↔
      entry.1 ∉ Entries.keys accepted.rules ∧ innerCheck entry.1 entry.2 = .ok () ∧
        ∃ register, accepted.register.claim entry = .ok register ∧
          { rules := accepted.rules ++ [entry], register } = next := by
  rw [declare, Entries.contains_eq_decide]
  by_cases hold : entry.1 ∈ Entries.keys accepted.rules
  · simp [hold]
  · rw [if_neg (by simpa using hold), bind_eq_ok_iff]
    simp only [map_eq_ok_iff]
    constructor
    · rintro ⟨_, hinner, hclaim⟩
      exact ⟨hold, hinner, hclaim⟩
    · rintro ⟨-, hinner, hclaim⟩
      exact ⟨(), hinner, hclaim⟩

lemma Accepted.declare_eq_error_iff (accepted : Accepted) (entry : String × Rule)
    (defect : Defect) :
    accepted.declare entry = .error defect ↔
      (entry.1 ∈ Entries.keys accepted.rules ∧ defect = .repeatedField entry.1) ∨
      (entry.1 ∉ Entries.keys accepted.rules ∧
        (innerCheck entry.1 entry.2 = .error defect ∨
          innerCheck entry.1 entry.2 = .ok () ∧ accepted.register.claim entry = .error defect)) := by
  rw [declare, Entries.contains_eq_decide]
  by_cases hold : entry.1 ∈ Entries.keys accepted.rules
  · simp [hold, eq_comm]
  · rw [if_neg (by simpa using hold), bind_eq_error_iff]
    simp only [map_eq_error_iff, hold, false_and, false_or, not_false_eq_true, true_and]
    refine or_congr_right ⟨?_, ?_⟩
    · rintro ⟨_, hinner, hclaim⟩
      exact ⟨hinner, hclaim⟩
    · rintro ⟨hinner, hclaim⟩
      exact ⟨(), hinner, hclaim⟩

/-- What the declarations accepted so far say of the entries taken: they are these entries, and
their register knows of them. -/
def Accepted.Holds (accepted : Accepted) (earlier : List (String × Rule)) : Prop :=
  accepted.rules = earlier ∧ accepted.register.Tracks earlier

lemma lawful_append_singleton (before : List (String × Rule)) (entry : String × Rule) :
    Lawful (before ++ [entry]) ↔
      Lawful before ∧ ∀ defect, ¬ DeclarationDefect before entry defect := by
  obtain ⟨name, rule⟩ := entry
  constructor
  · rintro ⟨hdistinct, hun, helements⟩
    rw [Entries.distinct_append_singleton] at hdistinct
    rw [uncontested_append_singleton] at hun
    refine ⟨⟨hdistinct.1, hun.1, fun o d i hm => helements o d i (by simp [hm])⟩, ?_⟩
    intro defect hdefect
    cases hdefect with
    | repeated h => exact hdistinct.2 h
    | inner hnew hinner =>
      have hlawful := helements _ _ _ (List.mem_append_right before List.mem_cons_self)
      rw [← elementsLawful_sorted] at hlawful
      obtain ⟨front, entry, back, hsplit, -, hbad⟩ := hinner
      rw [hsplit] at hlawful
      exact (elementsScan name).not_good hbad hlawful
    | contested hnew hinner hslot hrival =>
      obtain ⟨other, ho, hc⟩ := hrival.exists_contend
      exact hun.2 other ho hc
  · rintro ⟨⟨hdistinct, hun, helements⟩, hno⟩
    have hnew : name ∉ Entries.keys before := fun h => hno _ (.repeated h)
    have hinner : ∀ defaults rules, rule = .each defaults rules → ElementsLawful rules := by
      rw [← innerCheck_eq_ok_iff name]
      cases hcheck : innerCheck name rule with
      | ok u => rfl
      | error defect =>
        obtain ⟨defaults, rules, rfl, hd⟩ := (innerCheck_eq_error_iff name rule defect).mp hcheck
        exact absurd (.inner hnew hd) (hno defect)
    refine ⟨Entries.distinct_append_singleton.mpr ⟨hdistinct, hnew⟩,
      uncontested_append_singleton.mpr ⟨hun, fun other ho hc => ?_⟩, fun o d i hm => ?_⟩
    · obtain ⟨slot, first, hslot, hrival⟩ := exists_rival ho hc
      exact hno _ (.contested hnew hinner hslot hrival)
    · rcases List.mem_append.mp hm with hm | hm
      · exact helements o d i hm
      · obtain ⟨-, rfl⟩ := Prod.mk.inj (List.mem_singleton.mp hm)
        exact hinner d i rfl

theorem declarationsScan :
    Scan Accepted.declare {} Accepted.Holds Lawful DeclarationDefect where
  knows_nil := ⟨rfl, .empty⟩
  good_nil := ⟨Entries.distinct_nil, List.Pairwise.nil, by simp⟩
  good_append_singleton := lawful_append_singleton
  granted before accepted entry next hgood hknows hstep := by
    obtain ⟨-, -, register, hclaim, rfl⟩ := (accepted.declare_eq_ok_iff next entry).mp hstep
    exact ⟨by rw [hknows.1], (hknows.2.claim_eq_ok hgood.uncontested hclaim).1⟩
  refused before accepted entry defect hgood hknows := by
    obtain ⟨name, rule⟩ := entry
    obtain ⟨hrules, htracks⟩ := hknows
    rw [accepted.declare_eq_error_iff, hrules, innerCheck_eq_error_iff, innerCheck_eq_ok_iff,
      htracks.claim_eq_error_iff hgood.uncontested]
    constructor
    · rintro (⟨hold, rfl⟩ | ⟨hnew, ⟨defaults, rules, rfl, hd⟩ | ⟨hin, slot, first, hs, hr, rfl⟩⟩)
      · exact .repeated hold
      · exact .inner hnew hd
      · exact .contested hnew hin hs hr
    · intro hdefect
      cases hdefect with
      | repeated hold => exact Or.inl ⟨hold, rfl⟩
      | inner hnew hd => exact Or.inr ⟨hnew, Or.inl ⟨_, _, rfl, hd⟩⟩
      | contested hnew hin hs hr => exact Or.inr ⟨hnew, Or.inr ⟨hin, _, _, hs, hr, rfl⟩⟩

/-! ## Building -/

theorem Draft.defect?_eq_none_iff (draft : Draft) : draft.defect? = none ↔ Lawful draft.rules := by
  rw [← declarationsScan.eq_ok_iff, defect?, check]
  cases draft.rules.foldlM Accepted.declare {} <;> simp

theorem Draft.defect?_eq_some_iff (draft : Draft) (defect : Defect) :
    draft.defect? = some defect ↔
      ∃ before entry after, draft.rules = before ++ entry :: after ∧ Lawful before ∧
        DeclarationDefect before entry defect := by
  rw [← declarationsScan.eq_error_iff, defect?, check]
  cases draft.rules.foldlM Accepted.declare {} <;> simp

/-- **A mapping obeys the laws.** -/
theorem Mapping.lawful (mapping : Mapping) : Lawful mapping.rules :=
  mapping.toDraft.defect?_eq_none_iff.mp mapping.sound

end EventPayload
