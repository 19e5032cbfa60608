import EventPayload.Proofs.Shapes

/-!
# The elements of a list

Each element of a list of objects is laid over the defaults and put through the rules of its own.
These write single values only, and never where another one writes.  This file says what becomes of
one element, read off the rules, the defaults and the element.

* `Rule.made?` — what a rule makes of a single value; `Rule.makes_iff_made?` ties it to rules at work.
* `offered?` — **the value of a field**: that of the element, and only without one that of the
  defaults.
* `part?` — what a field puts into the object made of an element, and where.
* `RendersElement` — **what that object must be**: a part stands at its slot, nothing else is there,
  and the keys come in the order of the fields they come from.
* `written_overlay` — what is written for an element are its parts, in that order.
* `applyEach_renders` — the elements of every list that a mapping knows are rendered so, one by one.
-/

namespace EventPayload

/-! ## Single values -/

/-- **What a rule makes of a single value**: nothing if it drops it, or if its coercion has no
result. -/
def Rule.made? : Rule → Json → Option Json
  | drop, _ | each _ _, _ => none
  | copy, value | moveTo _, value => some value
  | coerce _ coercion, value => coercion.apply value

lemma Rule.makes_iff_made? {rule : Rule} (h : rule.isEach = false) (value result : Json) :
    rule.Makes value result ↔ rule.made? value = some result := by
  rw [rule.makes_iff ""]
  cases rule with
  | each defaults rules => simp [isEach] at h
  | _ => simp [Rule.value, made?]

/-! ## Parts -/

/-- **The value of a field** for an element: its own, even if that is null, or else the default. -/
def offered? (defaults element : Record) (field : String) : Option Json :=
  (Entries.get? element field).or (Entries.get? defaults field)

/-- The fields of the defaults, and behind them the others of an element. -/
def offeredFields (defaults element : Record) : List String :=
  Entries.keys defaults ++ (Entries.keys element).filter (· ∉ Entries.keys defaults)

/-- **The part of a field** in the object made of an element: what its rule makes of its value, with
the slot for it. -/
def part? (rules : Ruleset) (defaults element : Record) (field : String) : Option (Slot × Json) :=
  (Entries.get? rules field).bind fun rule =>
    (rule.slot? field).bind fun slot =>
      ((offered? defaults element field).bind rule.made?).map fun value => (slot, value)

/-- **What must become of an element.** -/
structure RendersElement (rules : Ruleset) (defaults element output : Record) : Prop where
  /-- At the slot of a rule stands what it makes of the value of its field, and nothing without. -/
  read : ∀ field rule slot, Entries.get? rules field = some rule → rule.slot? field = some slot →
    slot.get? output = (offered? defaults element field).bind rule.made?
  /-- No key stands twice. -/
  distinct : Entries.Distinct output
  /-- Every entry is a part, or an object that has parts in it, and nothing else. -/
  only : ∀ key value, (key, value) ∈ output →
    (∃ field, part? rules defaults element field = some (.top key, value)) ∨
      ∃ members, value = .obj members ∧ members ≠ [] ∧ Entries.Distinct members ∧
        ∀ inner result, (inner, result) ∈ members →
          ∃ field, part? rules defaults element field = some (.within key inner, result)
  /-- The keys are in the order of the first fields with a part under them. -/
  order : Entries.keys output
    = ((offeredFields defaults element).filterMap fun field =>
        (part? rules defaults element field).map fun part => part.1.root).eraseDups

section Element

variable {rules : Ruleset} {defaults element : Record} {field : String} {slot : Slot} {value : Json}

lemma part?_eq_some_iff :
    part? rules defaults element field = some (slot, value) ↔
      ∃ rule, Entries.get? rules field = some rule ∧ rule.slot? field = some slot ∧
        (offered? defaults element field).bind rule.made? = some value := by
  simp [part?, Option.bind_eq_some_iff, Option.map_eq_some_iff]

lemma get?_overlay_defaults (helement : Entries.Distinct element) (field : String) :
    Entries.get? (Entries.overlay defaults element) field = offered? defaults element field :=
  Entries.get?_overlay helement defaults field

lemma keys_overlay_defaults (helement : Entries.Distinct element) :
    Entries.keys (Entries.overlay defaults element) = offeredFields defaults element :=
  Entries.keys_overlay helement defaults

/-- **What is written for an element are its parts**, in the order of their fields. -/
theorem written_overlay (hflat : ∀ entry ∈ rules, entry.2.isEach = false)
    (hdefaults : Entries.Distinct defaults) (helement : Entries.Distinct element) :
    written rules.decide (Entries.overlay defaults element)
      = (offeredFields defaults element).filterMap (part? rules defaults element) := by
  have hmerged := Entries.distinct_overlay hdefaults element
  rw [← keys_overlay_defaults helement, Entries.keys, List.filterMap_map, written]
  refine List.filterMap_congr fun entry hentry => Option.ext fun part => ?_
  obtain ⟨slot, result⟩ := part
  have hvalue : offered? defaults element entry.1 = some entry.2 := by
    rw [← get?_overlay_defaults helement]
    exact (Entries.get?_eq_some_iff hmerged _ _).mpr hentry
  rw [written?_decide, Function.comp_apply, part?_eq_some_iff, hvalue]
  refine exists_congr fun rule => and_congr_right fun hrule => and_congr_right fun _ => ?_
  exact Rule.makes_iff_made? (hflat _ (Entries.mem_of_get? hrule)) entry.2 result

lemma mem_written_overlay (hflat : ∀ entry ∈ rules, entry.2.isEach = false)
    (hdefaults : Entries.Distinct defaults) (helement : Entries.Distinct element) :
    (slot, value) ∈ written rules.decide (Entries.overlay defaults element) ↔
      ∃ field, part? rules defaults element field = some (slot, value) := by
  rw [written_overlay hflat hdefaults helement, List.mem_filterMap]
  refine exists_congr fun field => and_iff_right_of_imp fun hpart => ?_
  obtain ⟨rule, -, -, hmade⟩ := part?_eq_some_iff.mp hpart
  obtain ⟨offered, hoffered, -⟩ := Option.bind_eq_some_iff.mp hmade
  rw [← keys_overlay_defaults helement, ← Entries.get?_isSome_iff, get?_overlay_defaults helement,
    hoffered]
  rfl

/-- Two fields whose parts clash are the same. -/
lemma eq_of_part?_clash (hrules : Uncontested rules) {rule : Rule} {other : String} {place : Slot}
    (hrule : Entries.get? rules field = some rule) (hslot : rule.slot? field = some slot)
    (hpart : part? rules defaults element other = some (place, value)) (hclash : place.Clash slot) :
    other = field := by
  obtain ⟨rival, hrival, hplace, -⟩ := part?_eq_some_iff.mp hpart
  have hsame := hrules.eq_of_contend (Entries.mem_of_get? hrival) (Entries.mem_of_get? hrule)
    ⟨place, slot, hplace, hslot, hclash⟩
  exact (Prod.mk.inj hsame).1

/-- **One element** becomes what it must. -/
theorem writeAll_rendersElement (hrules : ElementsLawful rules)
    (hdefaults : Entries.Distinct defaults) (helement : Entries.Distinct element) :
    RendersElement rules defaults element
      (writeAll (written rules.decide (Entries.overlay defaults element)) []) := by
  have hmerged := Entries.distinct_overlay hdefaults element
  have hun := unclashing_written hmerged hrules.uncontested
  have hmem : ∀ slot value, (slot, value) ∈ written rules.decide (Entries.overlay defaults element) ↔
      ∃ field, part? rules defaults element field = some (slot, value) :=
    fun slot value => mem_written_overlay hrules.flat hdefaults helement
  refine ⟨?_, distinct_writeAll Entries.distinct_nil _, ?_, ?_⟩
  · intro field rule slot hrule hslot
    cases hmade : (offered? defaults element field).bind rule.made? with
    | some value =>
      refine get?_writeAll_of_mem hun ((hmem slot value).mpr ⟨field, ?_⟩)
      exact part?_eq_some_iff.mpr ⟨rule, hrule, hslot, hmade⟩
    | none =>
      -- whatever clashes with the slot would have to come from the field itself
      refine get?_writeAll_of_free hun fun w hw hclash => ?_
      obtain ⟨other, hpart⟩ := (hmem w.1 w.2).mp hw
      obtain rfl := eq_of_part?_clash hrules.uncontested hrule hslot hpart hclash
      obtain ⟨same, hsame, -, hvalue⟩ := part?_eq_some_iff.mp hpart
      rw [hrule] at hsame
      rw [← Option.some.inj hsame, hmade] at hvalue
      cases hvalue
  · intro key value hentry
    rcases mem_writeAll hun hentry with htop | ⟨members, hobject, hne, hdistinct, hmembers⟩
    · exact Or.inl ((hmem _ _).mp htop)
    · refine Or.inr ⟨members, hobject, hne, hdistinct, fun inner result hresult => ?_⟩
      exact (hmem _ _).mp ((hmembers inner result).mp hresult)
  · rw [keys_writeAll, written_overlay hrules.flat hdefaults helement, List.map_filterMap]

end Element

/-! ## Lists -/

/-- **The elements of a list.**  What becomes of an element depends on nothing else than the element,
and is what it must be. -/
theorem applyEach_renders (mapping : Mapping) {owner : String} {defaults : Record} {rules : Ruleset}
    (hrule : (owner, Rule.each defaults rules) ∈ mapping.rules)
    (hdefaults : Entries.Distinct defaults) :
    ∃ render : Record → Record,
      (∀ elements : List Record, rules.applyEach defaults (elements.map .obj)
        = .ok (elements.map fun element => .obj (render element))) ∧
      ∀ element, Entries.Distinct element →
        RendersElement rules defaults element (render element) := by
  have hlawful := mapping.lawful.elements owner defaults rules hrule
  refine ⟨fun element => writeAll (written rules.decide (Entries.overlay defaults element)) [],
    fun elements => ?_, fun element helement => writeAll_rendersElement hlawful hdefaults helement⟩
  rw [Ruleset.applyEach, overlaidEach, mapM_eq_ok_iff_forall₂, List.forall₂_map_left_iff,
    List.forall₂_map_right_iff, List.forall₂_same]
  intro element _
  obtain ⟨output, happly⟩ := Ruleset.apply_of_flat hlawful.flat .drop
    (Entries.overlay defaults element)
  obtain ⟨-, rfl⟩ := (assemble_eq_ok_iff .drop _ output).mp happly
  exact congrArg (Except.map Json.obj) happly

/-- What an item has unless it says otherwise. -/
def basketDefaults : Record :=
  [("count", .str "1"), ("note", .str "none"), ("currency", .str "EUR"), ("weight", .str "light")]

def basketRules : Ruleset :=
  [("count", .coerce none .text), ("note", .copy), ("color", .drop), ("sku", .moveTo (.top "id")),
    ("price", .coerce (some (.within "cost" "net")) .text),
    ("currency", .moveTo (.within "cost" "currency"))]

def basketMapping : Mapping where
  rules := [("items", .each basketDefaults basketRules)]
  sound := by decide +kernel

/-- An item whose count is not a text, whose note is null, and whose weight no rule names. -/
def basketItem : Record :=
  [("weight", .str "heavy"), ("sku", .str "A1"), ("price", .str "5"), ("color", .str "red"),
    ("note", .null), ("count", .arr [])]

/-- The default count is not fallen back on, and the object for the cost stands where the default
currency puts it. -/
def basketEntry : Record :=
  [("note", .null), ("cost", .obj [("currency", .str "EUR"), ("net", .str "5")]), ("id", .str "A1")]

theorem basketItem_rendered :
    ("items", Rule.each basketDefaults basketRules) ∈ basketMapping.rules ∧
      Entries.Distinct basketDefaults ∧ Entries.Distinct basketItem ∧
      basketRules.applyEach basketDefaults [.obj basketItem] = .ok [.obj basketEntry] ∧
      RendersElement basketRules basketDefaults basketItem basketEntry := by
  have hrule : ("items", Rule.each basketDefaults basketRules) ∈ basketMapping.rules :=
    List.mem_singleton.mpr rfl
  have hentry : basketRules.applyEach basketDefaults [.obj basketItem] = .ok [.obj basketEntry] := rfl
  obtain ⟨render, hlist, helement⟩ := applyEach_renders basketMapping hrule (by decide)
  have hrender : render basketItem = basketEntry := by
    have hboth := (hlist [basketItem]).symm.trans hentry
    simpa using hboth
  refine ⟨hrule, by decide, by decide, hentry, ?_⟩
  rw [← hrender]
  exact helement basketItem (by decide)

end EventPayload
