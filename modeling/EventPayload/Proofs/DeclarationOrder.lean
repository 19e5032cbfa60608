import EventPayload.Proofs.Shapes

/-!
# The order of declarations does not matter

A draft declares rules in some order, and a rule for lists has declarations of its own.  This file
says what is left of that order: nothing in what a mapping does, and in what a draft is refused for
no more than the order of the outer declarations.

* `Rule.Rearranged` — **rules that differ in the order of inner declarations only**, at any depth.
* `InPlace` — declarations one by one, with related rules; `Shuffled` — the same in another order.
* `outline` — what the check of a list's elements sees of a declaration.
* `innerCheck_eq_of_rearranged` — rearranging a rule leaves what is wrong inside it as it is, since the
  elements of a list are checked in the order of their names.
* `check_inPlace` — hence a draft whose rules are rearranged in place is checked with the same outcome.
* `Lawful.shuffled` — a draft whose declarations are shuffled is as lawful as it was.
* `fate_eq_of_shuffled` — and decides the fate of every field in the same way.
* `build_shuffled` — **the order of declarations does not matter**.
-/

namespace EventPayload

/-! ## Declarations in another order -/

/-- **The same names in the same order**, with related rules. -/
inductive InPlace (related : Rule → Rule → Prop) :
    List (String × Rule) → List (String × Rule) → Prop
  | nil : InPlace related [] []
  | cons {name : String} {rule rule' : Rule} {rest rest' : List (String × Rule)}
      (h : related rule rule') (hrest : InPlace related rest rest') :
      InPlace related ((name, rule) :: rest) ((name, rule') :: rest')

/-- **Rules that differ in the order of inner declarations only.** -/
inductive Rule.Rearranged : Rule → Rule → Prop
  | same (rule : Rule) : Rearranged rule rule
  | each {defaults : Record} {rules moved rules' : List (String × Rule)}
      (hdistinct : Entries.Distinct rules) (hmoved : rules.Perm moved)
      (hinner : InPlace Rearranged moved rules') :
      Rearranged (.each defaults rules) (.each defaults rules')

/-- **The same declarations in another order**, and rearranged themselves. -/
def Shuffled (rules rules' : List (String × Rule)) : Prop :=
  ∃ moved, rules.Perm moved ∧ InPlace Rule.Rearranged moved rules'

namespace Rule.Rearranged

variable {rule rule' : Rule}

lemma isEach_eq (h : rule.Rearranged rule') : rule.isEach = rule'.isEach := by
  cases h with
  | same => rfl
  | each => rfl

lemma slot?_eq (h : rule.Rearranged rule') (field : String) :
    rule.slot? field = rule'.slot? field := by
  cases h with
  | same => rfl
  | each => rfl

lemma eq_of_flat (h : rule.Rearranged rule') (hflat : rule.isEach = false) : rule = rule' := by
  cases h with
  | same => rfl
  | each => cases hflat

end Rule.Rearranged

/-! ## Inner declarations -/

/-- **What the check of a list's elements sees of a declaration**: its name, whether it is a list,
and its slot. -/
def outline (entry : String × Rule) : String × Bool × Option Slot :=
  (entry.1, entry.2.isEach, declaredSlot? entry)

lemma InPlace.map_outline {rules rules' : List (String × Rule)}
    (h : InPlace Rule.Rearranged rules rules') : rules.map outline = rules'.map outline := by
  induction h with
  | nil => rfl
  | cons h _ ih =>
    rw [List.map_cons, List.map_cons, ih, outline, outline, h.isEach_eq, declaredSlot?, declaredSlot?,
      h.slot?_eq]

/-- Declarations in the order of their names are told apart by nothing but these. -/
lemma map_outline_sorted {rules rules' : Ruleset} (hdistinct : Entries.Distinct rules)
    (h : (rules.map outline).Perm (rules'.map outline)) :
    (Entries.sorted rules).map outline = (Entries.sorted rules').map outline := by
  have hordered : ∀ rules : Ruleset,
      ((Entries.sorted rules).map outline).Pairwise fun a b => a.1 ≤ b.1 := fun rules =>
    List.pairwise_map.mpr (Entries.sorted_ordered rules)
  have hperm : ((Entries.sorted rules).map outline).Perm ((Entries.sorted rules').map outline) :=
    ((Entries.sorted_perm rules).map outline).trans
      (h.trans ((Entries.sorted_perm rules').map outline).symm)
  refine List.Perm.eq_of_pairwise (fun a b ha hb hab hba => ?_) (hordered rules) (hordered rules') hperm
  -- two outlines with the same name come from the same declaration
  obtain ⟨⟨name, rule⟩, hentry, rfl⟩ := List.mem_map.mp ha
  obtain ⟨⟨name', again⟩, hentry', rfl⟩ := List.mem_map.mp (hperm.mem_iff.mpr hb)
  obtain rfl : name = name' := Std.le_antisymm hab hba
  rw [(Entries.sorted_perm rules).mem_iff, ← Entries.get?_eq_some_iff hdistinct] at hentry hentry'
  rw [Option.some.inj (hentry.symm.trans hentry')]

lemma claimElement_eq_of_outline (owner : String) (register : Register) {a b : String × Rule}
    (h : outline a = outline b) :
    register.claimElement owner a = register.claimElement owner b := by
  simp only [outline, declaredSlot?, Prod.mk.injEq] at h
  obtain ⟨hname, heach, hslot⟩ := h
  rw [Register.claimElement, Register.claimElement, Register.claim, Register.claim, heach, hslot, hname]

lemma foldlM_claimElement (owner : String) {rules rules' : List (String × Rule)}
    (h : rules.map outline = rules'.map outline) (register : Register) :
    rules.foldlM (Register.claimElement owner) register
      = rules'.foldlM (Register.claimElement owner) register := by
  induction rules generalizing rules' register with
  | nil =>
    obtain rfl : rules' = [] := by simpa using h.symm
    rfl
  | cons entry rest ih =>
    cases rules' with
    | nil => simp at h
    | cons entry' rest' =>
      rw [List.map_cons, List.map_cons, List.cons.injEq] at h
      rw [List.foldlM_cons, List.foldlM_cons, claimElement_eq_of_outline owner register h.1]
      exact congrArg _ (funext fun next => ih h.2 next)

/-- **Rearranging a rule leaves what is wrong inside it as it is.** -/
theorem innerCheck_eq_of_rearranged {rule rule' : Rule} (h : rule.Rearranged rule')
    (owner : String) : innerCheck owner rule = innerCheck owner rule' := by
  cases h with
  | same => rfl
  | @each _ rules moved rules' hdistinct hmoved hinner =>
    have houtlines : (rules.map outline).Perm (rules'.map outline) :=
      hinner.map_outline ▸ hmoved.map outline
    have hsorted := map_outline_sorted hdistinct houtlines
    rw [innerCheck, innerCheck, elementRegister, elementRegister, foldlM_claimElement owner hsorted]

/-! ## Outer declarations -/

/-- What the check of later declarations sees of those accepted so far. -/
def Accepted.seen (accepted : Accepted) : List String × Register :=
  (Entries.keys accepted.rules, accepted.register)

lemma declare_seen {accepted accepted' : Accepted} (hseen : accepted.seen = accepted'.seen)
    (name : String) {rule rule' : Rule} (h : rule.Rearranged rule') :
    (accepted.declare (name, rule)).map Accepted.seen
      = (accepted'.declare (name, rule')).map Accepted.seen := by
  obtain ⟨hkeys, hregister⟩ := Prod.mk.inj hseen
  have hclaim : accepted.register.claim (name, rule) = accepted'.register.claim (name, rule') := by
    rw [Register.claim, Register.claim, h.slot?_eq, hregister]
  rw [Accepted.declare, Accepted.declare, Entries.contains_eq_decide, Entries.contains_eq_decide,
    hkeys, hclaim, innerCheck_eq_of_rearranged h]
  split
  · rfl
  · cases innerCheck name rule' with
    | error defect => rfl
    | ok _ =>
      cases accepted'.register.claim (name, rule') with
      | error defect => rfl
      | ok register =>
        have hlonger : Entries.keys (accepted.rules ++ [(name, rule)])
            = Entries.keys (accepted'.rules ++ [(name, rule')]) := by
          simpa [Entries.keys] using hkeys
        simp [Except.bind, Except.map, Accepted.seen, hlonger]

/-- **A draft whose rules are rearranged in place is checked with the same outcome.** -/
theorem check_inPlace {rules rules' : List (String × Rule)}
    (h : InPlace Rule.Rearranged rules rules') {accepted accepted' : Accepted}
    (hseen : accepted.seen = accepted'.seen) :
    (rules.foldlM Accepted.declare accepted).map Accepted.seen
      = (rules'.foldlM Accepted.declare accepted').map Accepted.seen := by
  induction h generalizing accepted accepted' with
  | nil => exact congrArg Except.ok hseen
  | @cons name rule rule' rest rest' h _ ih =>
    have hstep := declare_seen hseen name h
    rw [List.foldlM_cons, List.foldlM_cons]
    cases hnext : accepted.declare (name, rule) with
    | error defect =>
      rw [hnext, eq_comm, Except.map, map_eq_error_iff] at hstep
      rw [hstep]
      rfl
    | ok next =>
      rw [hnext, eq_comm, Except.map, map_eq_ok_iff] at hstep
      obtain ⟨next', hnext', hseen'⟩ := hstep
      rw [hnext']
      exact ih hseen'.symm

lemma defect?_inPlace (draft : Draft) {rules' : List (String × Rule)}
    (h : InPlace Rule.Rearranged draft.rules rules') :
    draft.defect? = { draft with rules := rules' }.defect? := by
  have hcheck : draft.check.map Accepted.seen
      = ({ draft with rules := rules' } : Draft).check.map Accepted.seen := check_inPlace h rfl
  have hdefect : ∀ draft : Draft, draft.defect? = match draft.check.map Accepted.seen with
      | .ok _ => none
      | .error defect => some defect := by
    intro draft
    rw [Draft.defect?]
    cases draft.check <;> rfl
  rw [hdefect, hdefect, hcheck]

lemma Lawful.perm {rules rules' : List (String × Rule)} (h : rules.Perm rules') :
    Lawful rules ↔ Lawful rules' := by
  have hof : ∀ {rules rules' : List (String × Rule)}, rules.Perm rules' → Lawful rules → Lawful rules' :=
    fun hperm hlawful => ⟨(Entries.distinct_perm hperm).mp hlawful.distinct,
      (Uncontested.perm hperm).mp hlawful.uncontested, fun owner defaults inner hentry =>
        hlawful.elements owner defaults inner (hperm.mem_iff.mpr hentry)⟩
  exact ⟨hof h, hof h.symm⟩

/-- **Shuffled declarations are as lawful as they were.** -/
theorem Lawful.shuffled {rules rules' : List (String × Rule)} (h : Shuffled rules rules') :
    Lawful rules ↔ Lawful rules' := by
  obtain ⟨moved, hmoved, hinPlace⟩ := h
  rw [Lawful.perm hmoved, ← Draft.defect?_eq_none_iff { rules := moved },
    defect?_inPlace { rules := moved } hinPlace, Draft.defect?_eq_none_iff]

/-! ## Fates -/

lemma InPlace.rel_get? {related : Rule → Rule → Prop} {rules rules' : List (String × Rule)}
    (h : InPlace related rules rules') (field : String) :
    Option.Rel related (Entries.get? rules field) (Entries.get? rules' field) := by
  induction h with
  | nil => exact .none
  | @cons name rule rule' rest rest' h _ ih =>
    rw [Entries.get?_cons, Entries.get?_cons]
    split
    · exact .some h
    · exact ih

lemma InPlace.eq_of_flat {rules rules' : List (String × Rule)}
    (h : InPlace Rule.Rearranged rules rules') (hflat : ∀ entry ∈ rules, entry.2.isEach = false) :
    rules = rules' := by
  induction h with
  | nil => rfl
  | cons h _ ih =>
    rw [List.forall_mem_cons] at hflat
    rw [h.eq_of_flat hflat.1, ih hflat.2]

/-- A ruleset is known by the fates that it decides. -/
lemma apply_eq_of_fate {rules rules' : Ruleset}
    (h : ∀ field value, Ruleset.fate field value rules = Ruleset.fate field value rules')
    (leftovers : Leftovers) : rules.apply leftovers = rules'.apply leftovers := by
  funext source
  have hfate : (fun field value => Ruleset.fate field value rules)
      = fun field value => Ruleset.fate field value rules' :=
    funext fun field => funext fun value => h field value
  rw [Ruleset.apply, Ruleset.apply, hfate]

/-- **A rearranged rule makes the same of a value**, if its inner rules obey the laws: these hold no
further lists, so they are the same rules in another order. -/
theorem value_eq_of_rearranged {rule rule' : Rule} (h : rule.Rearranged rule')
    (hinner : ∀ defaults rules, rule = .each defaults rules → ElementsLawful rules) (field : String)
    (value : Json) : rule.value field value = rule'.value field value := by
  cases h with
  | same => rfl
  | @each defaults rules moved rules' hdistinct hmoved hplace =>
    have hflat : ∀ entry ∈ moved, entry.2.isEach = false := fun entry hentry =>
      (hinner defaults rules rfl).flat entry (hmoved.mem_iff.mpr hentry)
    obtain rfl := hplace.eq_of_flat hflat
    have hfate : ∀ field value, Ruleset.fate field value rules = Ruleset.fate field value moved := by
      intro field value
      rw [Ruleset.fate_eq, Ruleset.fate_eq, Entries.get?_perm hdistinct hmoved]
    cases value with
    | arr items =>
      rw [Rule.value_each_arr, Rule.value_each_arr, Ruleset.applyEach, Ruleset.applyEach,
        apply_eq_of_fate hfate]
    | _ => simp only [Rule.value]

/-- **Shuffled declarations decide the fate of every field in the same way.** -/
theorem fate_eq_of_shuffled {rules rules' : List (String × Rule)} (hlawful : Lawful rules)
    (h : Shuffled rules rules') (field : String) (value : Json) :
    Ruleset.fate field value rules = Ruleset.fate field value rules' := by
  obtain ⟨moved, hmoved, hinPlace⟩ := h
  have hrel := hinPlace.rel_get? field
  rw [Ruleset.fate_eq, Ruleset.fate_eq, Entries.get?_perm hlawful.distinct hmoved]
  cases hrule : Entries.get? moved field with
  | none =>
    rw [hrule, rel_none_iff] at hrel
    rw [hrel]
  | some rule =>
    rw [hrule, rel_some_iff] at hrel
    obtain ⟨rule', hrule', hrearranged⟩ := hrel
    have hentry : (field, rule) ∈ rules := hmoved.mem_iff.mpr (Entries.mem_of_get? hrule)
    have hvalue := value_eq_of_rearranged hrearranged
      (fun defaults inner heach => hlawful.elements field defaults inner (heach ▸ hentry)) field value
    simp only [hrule', hvalue, hrearranged.slot?_eq]

/-! ## Building -/

lemma Draft.exists_build_iff (draft : Draft) :
    (∃ mapping, draft.build = .ok mapping) ↔ Lawful draft.rules := by
  rw [← draft.defect?_eq_none_iff]
  constructor
  · rintro ⟨mapping, hmapping⟩
    rw [← (draft.build_eq_ok_iff mapping).mp hmapping]
    exact mapping.sound
  · intro hsound
    exact ⟨⟨draft, hsound⟩, (draft.build_eq_ok_iff _).mpr rfl⟩

lemma run_eq_of_shuffled (mapping mapping' : Mapping) (h : Shuffled mapping.rules mapping'.rules)
    (hleftovers : mapping.leftovers = mapping'.leftovers)
    (hfinishers : mapping.finishers = mapping'.finishers) (source : Record) :
    mapping.run source = mapping'.run source := by
  have hfate := fate_eq_of_shuffled mapping.lawful h
  rw [Mapping.run, Mapping.run, apply_eq_of_fate hfate, hleftovers, hfinishers]

/-- **The order of declarations does not matter.**  Of two drafts that differ in the order of their
declarations, and in that of the declarations inside their lists, either both can be built or neither
can, and what is built runs alike on every source: the same payload in the same order, or the same
failure.  Where the outer declarations keep their order, the two are refused for the same defect. -/
theorem build_shuffled (draft : Draft) (rules' : List (String × Rule)) :
    (Shuffled draft.rules rules' →
      ((∃ mapping, draft.build = .ok mapping) ↔
        ∃ mapping', { draft with rules := rules' }.build = .ok mapping') ∧
      ∀ mapping mapping', draft.build = .ok mapping →
        { draft with rules := rules' }.build = .ok mapping' →
        ∀ source, mapping.run source = mapping'.run source) ∧
    (InPlace Rule.Rearranged draft.rules rules' → ∀ defect,
      draft.build = .error defect ↔ { draft with rules := rules' }.build = .error defect) := by
  refine ⟨fun h => ⟨?_, ?_⟩, fun h defect => ?_⟩
  · rw [Draft.exists_build_iff, Draft.exists_build_iff, Lawful.shuffled h]
  · intro mapping mapping' hmapping hmapping' source
    rw [Draft.build_eq_ok_iff] at hmapping hmapping'
    obtain ⟨toDraft, hsound⟩ := mapping
    obtain ⟨toDraft', hsound'⟩ := mapping'
    obtain rfl : toDraft = draft := hmapping
    obtain rfl : toDraft' = { toDraft with rules := rules' } := hmapping'
    exact run_eq_of_shuffled ⟨toDraft, hsound⟩ ⟨_, hsound'⟩ h rfl rfl source
  · rw [Draft.build_eq_error_iff, Draft.build_eq_error_iff, defect?_inPlace draft h]

def shelfItems : Rule :=
  .each [("count", .str "1")]
    [("sku", .moveTo (.top "id")), ("count", .coerce none .text), ("note", .copy)]

/-- The items on a shelf, with an owner and a place. -/
def shelfDraft : Draft where
  rules := [("items", shelfItems), ("owner", .copy), ("row", .moveTo (.within "place" "row"))]
  leftovers := .pass

/-- The same shelf, the place first and the notes on items before the rest. -/
def shelfShuffled : List (String × Rule) :=
  [("row", .moveTo (.within "place" "row")),
    ("items", .each [("count", .str "1")]
      [("note", .copy), ("sku", .moveTo (.top "id")), ("count", .coerce none .text)]),
    ("owner", .copy)]

/-- Items with two fields for one slot, and with a list among them. -/
def crampedDraft : Draft where
  rules := [("items", .each [] [("id", .copy), ("parts", .each [] []), ("code", .moveTo (.top "id"))])]

def crampedShuffled : List (String × Rule) :=
  [("items", .each [] [("code", .moveTo (.top "id")), ("id", .copy), ("parts", .each [] [])])]

/-- The shelf is built in either order and runs alike; the cramped items are refused for the same
pair of fields, which come before the list by their names. -/
theorem shelf_shuffled :
    Shuffled shelfDraft.rules shelfShuffled ∧
      InPlace Rule.Rearranged crampedDraft.rules crampedShuffled ∧
      (∃ mapping mapping', shelfDraft.build = .ok mapping ∧
        { shelfDraft with rules := shelfShuffled }.build = .ok mapping' ∧
        ∀ source, mapping.run source = mapping'.run source) ∧
      crampedDraft.build = .error (.contested (.top "id") "code" "id") ∧
      { crampedDraft with rules := crampedShuffled }.build
        = .error (.contested (.top "id") "code" "id") := by
  have hitems : shelfItems.Rearranged (.each [("count", .str "1")]
      [("note", .copy), ("sku", .moveTo (.top "id")), ("count", .coerce none .text)]) :=
    .each (by decide) (List.perm_append_singleton ("note", Rule.copy) [_, _])
      (.cons (.same _) (.cons (.same _) (.cons (.same _) .nil)))
  have hshelf : Shuffled shelfDraft.rules shelfShuffled :=
    ⟨_, List.perm_append_singleton ("row", Rule.moveTo (.within "place" "row")) [_, _],
      .cons (.same _) (.cons hitems (.cons (.same _) .nil))⟩
  have hcramped : InPlace Rule.Rearranged crampedDraft.rules crampedShuffled :=
    .cons (.each (by decide) (List.perm_append_singleton ("code", Rule.moveTo (.top "id")) [_, _])
      (.cons (.same _) (.cons (.same _) (.cons (.same _) .nil)))) .nil
  have hsound : shelfDraft.defect? = none := by decide +kernel
  have hbuilt : shelfDraft.build = .ok ⟨shelfDraft, hsound⟩ := (Draft.build_eq_ok_iff _ _).mpr rfl
  have hrefused : crampedDraft.build = .error (.contested (.top "id") "code" "id") :=
    (Draft.build_eq_error_iff _ _).mpr (by decide +kernel)
  obtain ⟨hboth, hrun⟩ := (build_shuffled shelfDraft shelfShuffled).1 hshelf
  obtain ⟨mapping', hbuilt'⟩ := hboth.mp ⟨_, hbuilt⟩
  exact ⟨hshelf, hcramped, ⟨_, mapping', hbuilt, hbuilt', hrun _ mapping' hbuilt hbuilt'⟩, hrefused,
    ((build_shuffled crampedDraft crampedShuffled).2 hcramped _).mp hrefused⟩

end EventPayload
