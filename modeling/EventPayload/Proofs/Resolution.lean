import EventPayload.Proofs.Sources

/-!
# What a directive comes to

A directive is written in JSON, and groups of directives nest to any depth.  This file says what
resolving one comes to, in terms of directives as they are written: when it fails and why, when it is
absent, and what is in it otherwise.

* `isGroup`, `group_induction` — **a group** is an object that is no path and no literal, and
  induction goes through the members of groups.
* `Active` — **an active directive**, reached from the top through members of groups; `positions`
  lists them, each before its members and these in their order (`mem_positions_iff`).
* `Breaks` — a path that cannot be looked up.  `resolve_eq_error_iff`: a directive fails with the first
  active path that breaks.
* `Inserts` — what is inserted as it stands.  `Keeps` — the members of a group that are not absent.
  `resolve_eq_none_iff` and `resolve_eq_some_iff` say when a directive is absent and what is there
  otherwise.
* `Json.At` — what stands at a position in a value.  `exists_verbatim_of_empty`: an empty object in
  what a directive comes to was written so, or found so.
* `resolve_exact` — all of this in one.
-/

namespace EventPayload

/-! ## Positions in values -/

/-- One step down into a value. -/
inductive Json.Step where
  | key (name : String)
  | index (i : Nat)

/-- **What stands at a position in a value**, given by the steps that lead there. -/
inductive Json.At : Json → List Json.Step → Json → Prop
  | here (value : Json) : At value [] value
  | member {members : Record} {key : String} {value found : Json} {steps : List Json.Step}
      (hentry : (key, value) ∈ members) (h : At value steps found) :
      At (.obj members) (.key key :: steps) found
  | item {items : List Json} {i : Nat} {value found : Json} {steps : List Json.Step}
      (hitem : items[i]? = some value) (h : At value steps found) :
      At (.arr items) (.index i :: steps) found

namespace Directive

variable {event : Json}

/-! ## Kinds of directives -/

/-- **A group** is an object with anything but a single path or literal in it. -/
def isGroup : Json → Bool
  | .obj [(key, _)] => key ≠ "@path" && key ≠ "@literal"
  | .obj _ => true
  | _ => false

/-- What is no group is a path, a literal or no object at all. -/
lemma cases_of_not_isGroup {directive : Json} (h : isGroup directive = false) :
    (∃ target, directive = .obj [("@path", target)]) ∨
      (∃ value, directive = .obj [("@literal", value)]) ∨ ∀ members, directive ≠ .obj members := by
  unfold isGroup at h
  split at h
  · next key value =>
    by_cases hpath : key = "@path"
    · exact Or.inl ⟨value, by rw [hpath]⟩
    · have hliteral : key = "@literal" := by simpa [hpath] using h
      exact Or.inr (Or.inl ⟨value, by rw [hliteral]⟩)
  · cases h
  · next hplain => exact Or.inr (Or.inr hplain)

/-- **Induction on directives**, through the members of groups. -/
theorem group_induction {motive : Json → Prop}
    (leaf : ∀ directive, isGroup directive = false → motive directive)
    (group : ∀ members, isGroup (.obj members) = true → (∀ entry ∈ members, motive entry.2) →
      motive (.obj members))
    (directive : Json) : motive directive := by
  induction directive using Json.induction with
  | obj members ih =>
    cases hgroup : isGroup (.obj members) with
    | false => exact leaf _ hgroup
    | true => exact group members hgroup ih
  | _ => exact leaf _ rfl

lemma resolve_path (event target : Json) :
    resolve event (ofJson (.obj [("@path", target)])) = lookupAt event target := by
  simp [ofJson, resolve]

lemma resolve_literal (event value : Json) :
    resolve event (ofJson (.obj [("@literal", value)])) = .ok (some value) := by
  simp [ofJson, resolve]

lemma resolve_plain (event : Json) {directive : Json} (h : ∀ members, directive ≠ .obj members) :
    resolve event (ofJson directive) = .ok (some directive) := by
  cases directive with
  | obj members => exact absurd rfl (h members)
  | _ => rfl

lemma resolve_group (event : Json) {members : Record} (h : isGroup (.obj members) = true) :
    resolve event (ofJson (.obj members))
      = (resolveMembers event (ofMembers members)).map fun kept =>
          if kept = [] ∧ members ≠ [] then none else some (.obj kept) := by
  obtain ⟨target, rfl, -⟩ | ⟨value, rfl, -⟩ | ⟨-, -, hread⟩ := ofJson_obj members
  · cases h
  · cases h
  · rw [hread, resolve]
    cases members <;> simp [ofMembers]

/-! ## Active directives -/

/-- **An active directive**, with the keys that lead to it from the top through members of groups. -/
inductive Active : Json → List String → Json → Prop
  | here (directive : Json) : Active directive [] directive
  | member {members : Record} {key : String} {directive active : Json} {keys : List String}
      (hgroup : isGroup (.obj members) = true) (hentry : (key, directive) ∈ members)
      (h : Active directive keys active) : Active (.obj members) (key :: keys) active

mutual

/-- **The active directives in pre-order**: each before its members, and these in their order. -/
def positions : Json → List (List String × Json)
  | .obj members =>
    ([], .obj members) :: if isGroup (.obj members) then memberPositions members else []
  | directive => [([], directive)]

def memberPositions : List (String × Json) → List (List String × Json)
  | [] => []
  | (key, directive) :: rest =>
    (positions directive).map (fun position => (key :: position.1, position.2)) ++ memberPositions rest

end

lemma positions_leaf {directive : Json} (h : isGroup directive = false) :
    positions directive = [([], directive)] := by
  cases directive with
  | obj members => simp [positions, h]
  | _ => rfl

lemma positions_group {members : Record} (h : isGroup (.obj members) = true) :
    positions (.obj members) = ([], .obj members) :: memberPositions members := by
  rw [positions, if_pos h]

lemma mem_memberPositions_iff (members : Record) (position : List String × Json) :
    position ∈ memberPositions members ↔
      ∃ key directive keys, (key, directive) ∈ members ∧ (keys, position.2) ∈ positions directive ∧
        position.1 = key :: keys := by
  induction members with
  | nil => simp [memberPositions]
  | cons entry rest ih =>
    obtain ⟨key, directive⟩ := entry
    rw [memberPositions, List.mem_append, List.mem_map, ih]
    constructor
    · rintro (⟨⟨keys, active⟩, hmem, rfl⟩ | ⟨other, member, keys, hentry, hmem, hkeys⟩)
      · exact ⟨key, directive, keys, List.mem_cons_self, hmem, rfl⟩
      · exact ⟨other, member, keys, List.mem_cons_of_mem _ hentry, hmem, hkeys⟩
    · rintro ⟨other, member, keys, hentry, hmem, hkeys⟩
      rcases List.mem_cons.mp hentry with heq | hrest
      · obtain ⟨rfl, rfl⟩ := Prod.mk.inj heq
        exact Or.inl ⟨_, hmem, Prod.ext hkeys.symm rfl⟩
      · exact Or.inr ⟨other, member, keys, hrest, hmem, hkeys⟩

/-- **The positions are those of the active directives.** -/
theorem mem_positions_iff (directive active : Json) (keys : List String) :
    (keys, active) ∈ positions directive ↔ Active directive keys active := by
  induction directive using group_induction generalizing keys with
  | leaf directive hleaf =>
    rw [positions_leaf hleaf, List.mem_singleton, Prod.mk.injEq]
    constructor
    · rintro ⟨rfl, rfl⟩
      exact .here _
    · rintro (_ | ⟨hgroup, -, -⟩)
      · exact ⟨rfl, rfl⟩
      · rw [hleaf] at hgroup
        cases hgroup
  | group members hgroup ih =>
    rw [positions_group hgroup, List.mem_cons, Prod.mk.injEq, mem_memberPositions_iff]
    constructor
    · rintro (⟨rfl, rfl⟩ | ⟨key, directive, keys, hentry, hmem, rfl⟩)
      · exact .here _
      · exact .member hgroup hentry ((ih _ hentry keys).mp hmem)
    · rintro (_ | ⟨-, hentry, h⟩)
      · exact Or.inl ⟨rfl, rfl⟩
      · exact Or.inr ⟨_, _, _, hentry, (ih _ hentry _).mpr h, rfl⟩

/-! ## Failing -/

/-- **A path that breaks**: it is not a text, or it cannot be looked up in the event. -/
inductive Breaks (event : Json) : Json → InvalidPath → Prop
  | noText {target : Json} (h : ∀ text, target ≠ .str text) :
      Breaks event (.obj [("@path", target)]) ⟨target.compact⟩
  | lookUp {text : String} {invalid : InvalidPath} (h : Query.lookup event text = .error invalid) :
      Breaks event (.obj [("@path", .str text)]) invalid

/-- What breaks at a directive itself. -/
def fault? (event : Json) : Json → Option InvalidPath
  | .obj [(key, target)] =>
    if key = "@path" then
      match lookupAt event target with
      | .error invalid => some invalid
      | .ok _ => none
    else none
  | _ => none

lemma fault?_path (target : Json) (invalid : InvalidPath) :
    fault? event (.obj [("@path", target)]) = some invalid ↔
      lookupAt event target = .error invalid := by
  simp only [fault?, if_true]
  cases lookupAt event target <;> simp

lemma fault?_of_not_path {directive : Json} (h : ∀ target, directive ≠ .obj [("@path", target)]) :
    fault? event directive = none := by
  unfold fault?
  split
  · next key target =>
    have hkey : key ≠ "@path" := by
      rintro rfl
      exact h target rfl
    rw [if_neg hkey]
  · rfl

lemma lookupAt_eq_error_iff (target : Json) (invalid : InvalidPath) :
    lookupAt event target = .error invalid ↔ Breaks event (.obj [("@path", target)]) invalid := by
  constructor
  · intro h
    cases target with
    | str text => exact .lookUp h
    | _ =>
      rw [← Except.error.inj h]
      exact .noText nofun
  · rintro (h | h)
    · cases target with
      | str text => exact absurd rfl (h text)
      | _ => rfl
    · exact h

lemma fault?_eq_some_iff (directive : Json) (invalid : InvalidPath) :
    fault? event directive = some invalid ↔ Breaks event directive invalid := by
  by_cases hpath : ∃ target, directive = .obj [("@path", target)]
  · obtain ⟨target, rfl⟩ := hpath
    rw [fault?_path, lookupAt_eq_error_iff]
  · have hnot : ∀ target, directive ≠ .obj [("@path", target)] := not_exists.mp hpath
    rw [fault?_of_not_path hnot]
    refine iff_of_false nofun ?_
    rintro (h | h)
    · exact hnot _ rfl
    · exact hnot _ rfl

/-- **The first path to break** among positions in their order. -/
def FirstBreak (event : Json) (positions : List (List String × Json)) (invalid : InvalidPath) : Prop :=
  ∃ before position after, positions = before ++ position :: after ∧
    (∀ earlier ∈ before, ∀ fault, ¬ Breaks event earlier.2 fault) ∧ Breaks event position.2 invalid

lemma firstBreak_iff (positions : List (List String × Json)) (invalid : InvalidPath) :
    FirstBreak event positions invalid ↔
      positions.findSome? (fun position => fault? event position.2) = some invalid := by
  rw [List.findSome?_eq_some_iff, FirstBreak]
  simp only [fault?_eq_some_iff, Option.eq_none_iff_forall_ne_some, ne_eq]
  refine exists_congr fun before => exists_congr fun position => exists_congr fun after => ?_
  exact and_congr_right fun _ => and_comm

lemma resolveMembers_cons_eq_error_iff (key : String) (directive : Directive)
    (rest : Entries Directive) (invalid : InvalidPath) :
    resolveMembers event ((key, directive) :: rest) = .error invalid ↔
      resolve event directive = .error invalid ∨
        (∃ found, resolve event directive = .ok found) ∧
          resolveMembers event rest = .error invalid := by
  rw [resolveMembers]
  cases resolve event directive with
  | error other => simp [Except.bind]
  | ok found =>
    cases resolveMembers event rest with
    | error other => simp [Except.bind]
    | ok others => cases found <;> simp [Except.bind]

lemma resolveMembers_eq_error_iff_of {members : Record}
    (h : ∀ entry ∈ members, ∀ invalid, resolve event (ofJson entry.2) = .error invalid ↔
      FirstBreak event (positions entry.2) invalid) (invalid : InvalidPath) :
    resolveMembers event (ofMembers members) = .error invalid ↔
      FirstBreak event (memberPositions members) invalid := by
  simp only [firstBreak_iff] at h ⊢
  induction members with
  | nil => simp [ofMembers, resolveMembers, memberPositions]
  | cons entry rest ih =>
    obtain ⟨key, directive⟩ := entry
    rw [List.forall_mem_cons] at h
    have hfound : (∃ found, resolve event (ofJson directive) = .ok found) ↔
        (positions directive).findSome? (fun position => fault? event position.2) = none := by
      rw [Option.eq_none_iff_forall_ne_some]
      simp only [ne_eq, ← h.1]
      cases resolve event (ofJson directive) <;> simp
    rw [ofMembers, resolveMembers_cons_eq_error_iff, h.1, hfound, ih h.2, memberPositions,
      List.findSome?_append, List.findSome?_map, Option.or_eq_some_iff]
    rfl

lemma resolve_leaf_eq_error_iff {directive : Json} (h : isGroup directive = false)
    (invalid : InvalidPath) :
    resolve event (ofJson directive) = .error invalid ↔ fault? event directive = some invalid := by
  obtain ⟨target, rfl⟩ | ⟨value, rfl⟩ | hplain := cases_of_not_isGroup h
  · rw [resolve_path, fault?_path]
  · rw [resolve_literal, fault?_of_not_path (by simp)]
    exact iff_of_false nofun nofun
  · rw [resolve_plain event hplain, fault?_of_not_path fun target => hplain _]
    exact iff_of_false nofun nofun

/-- **A directive fails with the first active path that breaks.** -/
theorem resolve_eq_error_iff (directive : Json) (invalid : InvalidPath) :
    resolve event (ofJson directive) = .error invalid ↔
      FirstBreak event (positions directive) invalid := by
  induction directive using group_induction generalizing invalid with
  | leaf directive hleaf =>
    rw [resolve_leaf_eq_error_iff hleaf, firstBreak_iff, positions_leaf hleaf,
      List.findSome?_singleton]
  | group members hgroup ih =>
    have hself : fault? event (.obj members) = none := by
      refine fault?_of_not_path fun target heq => ?_
      rw [heq] at hgroup
      cases hgroup
    rw [resolve_group event hgroup, map_eq_error_iff, resolveMembers_eq_error_iff_of ih,
      firstBreak_iff, firstBreak_iff, positions_group hgroup, List.findSome?_cons, hself]

/-! ## Absence and presence -/

/-- **What is inserted as it stands**: a value that is looked up, a literal, and anything that is no
object. -/
@[mk_iff]
inductive Inserts (event : Json) : Json → Json → Prop
  | found {text : String} {value : Json} (h : Query.lookup event text = .ok (some value)) :
      Inserts event (.obj [("@path", .str text)]) value
  | literal (value : Json) : Inserts event (.obj [("@literal", value)]) value
  | plain {value : Json} (h : ∀ members, value ≠ .obj members) : Inserts event value value

/-- **The members that are kept**: those that are not absent, in their order, each with the value that
it resolves to. -/
inductive Keeps (event : Json) : Record → Record → Prop
  | nil : Keeps event [] []
  | absent {key : String} {directive : Json} {rest kept : Record}
      (h : resolve event (ofJson directive) = .ok none) (hrest : Keeps event rest kept) :
      Keeps event ((key, directive) :: rest) kept
  | present {key : String} {directive value : Json} {rest kept : Record}
      (h : resolve event (ofJson directive) = .ok (some value)) (hrest : Keeps event rest kept) :
      Keeps event ((key, directive) :: rest) ((key, value) :: kept)

theorem resolveMembers_eq_ok_iff (members kept : Record) :
    resolveMembers event (ofMembers members) = .ok kept ↔ Keeps event members kept := by
  induction members generalizing kept with
  | nil =>
    rw [ofMembers, resolveMembers, Except.ok.injEq]
    constructor
    · rintro rfl
      exact .nil
    · rintro ⟨⟩
      rfl
  | cons entry rest ih =>
    obtain ⟨key, directive⟩ := entry
    rw [ofMembers, resolveMembers_cons_eq_ok_iff]
    simp only [ih]
    constructor
    · rintro ⟨found, others, hfound, hothers, rfl⟩
      cases found with
      | none => exact .absent hfound hothers
      | some value => exact .present hfound hothers
    · rintro (_ | ⟨h, hrest⟩ | ⟨h, hrest⟩)
      · exact ⟨none, kept, h, hrest, rfl⟩
      · exact ⟨some _, _, h, hrest, rfl⟩

lemma Keeps.exists_of_mem {members kept : Record} (h : Keeps event members kept) {key : String}
    {value : Json} (hmem : (key, value) ∈ kept) :
    ∃ directive, (key, directive) ∈ members ∧
      resolve event (ofJson directive) = .ok (some value) := by
  induction h with
  | nil => cases hmem
  | absent _ _ ih =>
    obtain ⟨directive, hentry, hresolve⟩ := ih hmem
    exact ⟨directive, List.mem_cons_of_mem _ hentry, hresolve⟩
  | present h _ ih =>
    rcases List.mem_cons.mp hmem with heq | hrest
    · obtain ⟨rfl, rfl⟩ := Prod.mk.inj heq
      exact ⟨_, List.mem_cons_self, h⟩
    · obtain ⟨directive, hentry, hresolve⟩ := ih hrest
      exact ⟨directive, List.mem_cons_of_mem _ hentry, hresolve⟩

lemma keeps_nil_iff (members : Record) :
    Keeps event members [] ↔
      ∀ entry ∈ members, resolve event (ofJson entry.2) = .ok none := by
  induction members with
  | nil => exact iff_of_true .nil (List.forall_mem_nil _)
  | cons entry rest ih =>
    rw [List.forall_mem_cons, ← ih]
    constructor
    · rintro (_ | ⟨h, hrest⟩)
      exact ⟨h, hrest⟩
    · rintro ⟨h, hrest⟩
      exact .absent h hrest

lemma resolve_path_eq_ok_iff (target : Json) (found : Option Json) :
    resolve event (ofJson (.obj [("@path", target)])) = .ok found ↔
      ∃ text, target = .str text ∧ Query.lookup event text = .ok found := by
  rw [resolve_path]
  cases target <;> simp [lookupAt]

lemma resolve_group_eq_ok_iff {members : Record} (hgroup : isGroup (.obj members) = true)
    (found : Option Json) :
    resolve event (ofJson (.obj members)) = .ok found ↔
      ∃ kept, Keeps event members kept ∧
        (if kept = [] ∧ members ≠ [] then none else some (.obj kept)) = found := by
  simp only [resolve_group event hgroup, map_eq_ok_iff, resolveMembers_eq_ok_iff]

/-- **When a directive is absent**: its path is, or it is a group that had members and lost them all. -/
theorem resolve_eq_none_iff (directive : Json) :
    resolve event (ofJson directive) = .ok none ↔
      (∃ text, directive = .obj [("@path", .str text)] ∧ Query.lookup event text = .ok none) ∨
      ∃ members, directive = .obj members ∧ isGroup directive = true ∧ members ≠ [] ∧
        ∀ entry ∈ members, resolve event (ofJson entry.2) = .ok none := by
  cases hgroup : isGroup directive with
  | false =>
    obtain ⟨target, rfl⟩ | ⟨value, rfl⟩ | hplain := cases_of_not_isGroup hgroup
    · simp [resolve_path_eq_ok_iff]
    · simp [resolve_literal]
    · simp [resolve_plain event hplain, hplain]
  | true =>
    cases directive with
    | obj members =>
      have hnot : ∀ text, members ≠ [("@path", Json.str text)] := by
        rintro text rfl
        cases hgroup
      simp only [resolve_group_eq_ok_iff hgroup, ← keeps_nil_iff, ite_eq_left_iff, reduceCtorEq,
        imp_false, not_not, Json.obj.injEq, hnot, false_and, exists_false, false_or, true_and]
      constructor
      · rintro ⟨kept, hkeeps, rfl, hmembers⟩
        exact ⟨members, rfl, hmembers, hkeeps⟩
      · rintro ⟨_, rfl, hmembers, hkeeps⟩
        exact ⟨[], hkeeps, rfl, hmembers⟩
    | _ => cases hgroup

lemma resolve_leaf_eq_some_iff {directive : Json} (h : isGroup directive = false) (value : Json) :
    resolve event (ofJson directive) = .ok (some value) ↔ Inserts event directive value := by
  rw [inserts_iff]
  obtain ⟨target, rfl⟩ | ⟨written, rfl⟩ | hplain := cases_of_not_isGroup h
  · rw [resolve_path_eq_ok_iff]
    simp [and_comm]
  · simp [resolve_literal, eq_comm]
  · simp [resolve_plain event hplain, hplain, eq_comm]

lemma Inserts.not_isGroup {directive value : Json} (h : Inserts event directive value) :
    isGroup directive = false := by
  cases h with
  | found | literal => rfl
  | plain h =>
    cases directive with
    | obj members => exact absurd rfl (h members)
    | _ => rfl

/-- **What a directive comes to** unless it is absent: what is inserted as it stands, or the members
that a group keeps. -/
theorem resolve_eq_some_iff (directive value : Json) :
    resolve event (ofJson directive) = .ok (some value) ↔
      Inserts event directive value ∨
      ∃ members kept, directive = .obj members ∧ isGroup directive = true ∧
        Keeps event members kept ∧ (kept = [] → members = []) ∧ value = .obj kept := by
  cases hgroup : isGroup directive with
  | false => simp [resolve_leaf_eq_some_iff hgroup]
  | true =>
    have hnot : ¬ Inserts event directive value := fun h => by simp [h.not_isGroup] at hgroup
    rw [or_iff_right hnot]
    constructor
    · intro h
      cases directive with
      | obj members =>
        obtain ⟨kept, hkeeps, hkept⟩ := (resolve_group_eq_ok_iff hgroup _).mp h
        split at hkept
        · cases hkept
        · next hlost =>
          refine ⟨members, kept, rfl, rfl, hkeeps, fun hempty => ?_, (Option.some.inj hkept).symm⟩
          exact not_not.mp fun hmembers => hlost ⟨hempty, hmembers⟩
      | _ => cases hgroup
    · rintro ⟨members, kept, rfl, -, hkeeps, hempty, rfl⟩
      rw [resolve_group_eq_ok_iff hgroup]
      exact ⟨kept, hkeeps, if_neg fun hlost => hlost.2 (hempty hlost.1)⟩

/-! ## Empty objects -/

/-- **Where a value is found as it stands**: in an empty object, a literal or a list that is written in
the directive, or at a path in the event. -/
inductive Verbatim (event : Json) : Json → Json → Prop
  | empty : Verbatim event (.obj []) (.obj [])
  | literal (value : Json) : Verbatim event (.obj [("@literal", value)]) value
  | list (items : List Json) : Verbatim event (.arr items) (.arr items)
  | found {text : String} {value : Json} (h : Query.lookup event text = .ok (some value)) :
      Verbatim event (.obj [("@path", .str text)]) value

/-- **An empty object in what a directive comes to is in a value that some active directive has as it
stands**; no group ends up as one. -/
theorem exists_verbatim_of_empty {directive value : Json} {steps : List Json.Step}
    (hresolve : resolve event (ofJson directive) = .ok (some value))
    (hempty : Json.At value steps (.obj [])) :
    ∃ keys rest active whole, steps = keys.map Json.Step.key ++ rest ∧
      Active directive keys active ∧ Verbatim event active whole ∧
      Json.At value (keys.map Json.Step.key) whole ∧ Json.At whole rest (.obj []) := by
  induction directive using group_induction generalizing value steps with
  | leaf directive hleaf =>
    refine ⟨[], steps, directive, value, rfl, .here _, ?_, .here _, hempty⟩
    cases (resolve_leaf_eq_some_iff hleaf value).mp hresolve with
    | found h => exact .found h
    | literal => exact .literal _
    | plain hplain =>
      cases hempty with
      | here => exact absurd rfl (hplain [])
      | member => exact absurd rfl (hplain _)
      | item => exact .list _
  | group members hgroup ih =>
    obtain hinserts | ⟨_, kept, heq, -, hkeeps, hlost, rfl⟩ :=
      (resolve_eq_some_iff _ value).mp hresolve
    · simp [hinserts.not_isGroup] at hgroup
    obtain rfl := Json.obj.inj heq
    cases hempty with
    | here =>
      -- Nothing was kept, so the group had no members from the start.
      rw [hlost rfl]
      exact ⟨[], [], _, _, rfl, .here _, .empty, .here _, .here _⟩
    | member hentry hat =>
      obtain ⟨member, hmember, hvalue⟩ := hkeeps.exists_of_mem hentry
      obtain ⟨keys, rest, active, whole, rfl, hactive, hverbatim, hwhole, hrest⟩ :=
        ih _ hmember hvalue hat
      exact ⟨_ :: keys, rest, active, whole, rfl, .member hgroup hmember hactive, hverbatim,
        .member hentry hwhole, hrest⟩

/-! ## The whole of it -/

/-- **A directive is resolved exactly** for an event. -/
structure Exact (event directive : Json) : Prop where
  /-- It fails exactly if a path breaks at some active position. -/
  fails : (∃ invalid, resolve event (ofJson directive) = .error invalid) ↔
    ∃ keys active invalid, Active directive keys active ∧ Breaks event active invalid
  /-- The failure is that of the first such position. -/
  first : ∀ invalid, resolve event (ofJson directive) = .error invalid ↔
    FirstBreak event (positions directive) invalid
  /-- The positions are the active ones. -/
  listed : ∀ keys active, (keys, active) ∈ positions directive ↔ Active directive keys active
  /-- It is absent exactly if its path is, or if it is a group that lost all its members. -/
  absent : resolve event (ofJson directive) = .ok none ↔
    (∃ text, directive = .obj [("@path", .str text)] ∧ Query.lookup event text = .ok none) ∨
    ∃ members, directive = .obj members ∧ isGroup directive = true ∧ members ≠ [] ∧
      ∀ entry ∈ members, resolve event (ofJson entry.2) = .ok none
  /-- Otherwise it comes to what is inserted as it stands, or to the members that a group keeps. -/
  present : ∀ value, resolve event (ofJson directive) = .ok (some value) ↔
    Inserts event directive value ∨
    ∃ members kept, directive = .obj members ∧ isGroup directive = true ∧
      Keeps event members kept ∧ (kept = [] → members = []) ∧ value = .obj kept
  /-- An empty object in that is never what a group was left with. -/
  empty : ∀ value steps, resolve event (ofJson directive) = .ok (some value) →
    Json.At value steps (.obj []) →
    ∃ keys rest active whole, steps = keys.map Json.Step.key ++ rest ∧
      Active directive keys active ∧ Verbatim event active whole ∧
      Json.At value (keys.map Json.Step.key) whole ∧ Json.At whole rest (.obj [])

lemma exists_firstBreak_iff (positions : List (List String × Json)) :
    (∃ invalid, FirstBreak event positions invalid) ↔
      ∃ position ∈ positions, ∃ invalid, Breaks event position.2 invalid := by
  simp only [firstBreak_iff, ← fault?_eq_some_iff]
  rw [← Option.isSome_iff_exists, List.findSome?_isSome_iff]
  simp only [Option.isSome_iff_exists]

/-- **Resolution is exact**, for each directive on its own and for the record that named directives
give. -/
theorem resolve_exact (event : Json) :
    (∀ directive, Exact event directive) ∧
    ∀ directives : Record,
      (∀ invalid, resolveRecord directives event = .error invalid ↔
        FirstBreak event (memberPositions directives) invalid) ∧
      ∀ kept, resolveRecord directives event = .ok kept ↔ Keeps event directives kept := by
  refine ⟨fun directive => ?_, fun directives => ⟨fun invalid => ?_, ?_⟩⟩
  · refine ⟨?_, resolve_eq_error_iff directive, fun keys active => mem_positions_iff _ _ _,
      resolve_eq_none_iff directive, resolve_eq_some_iff directive,
      fun _ _ => exists_verbatim_of_empty⟩
    simp only [resolve_eq_error_iff, exists_firstBreak_iff, Prod.exists, mem_positions_iff]
    exact exists_congr fun keys => exists_congr fun active => exists_and_left.symm
  · exact resolveMembers_eq_error_iff_of (fun entry _ => resolve_eq_error_iff entry.2) invalid
  · exact resolveMembers_eq_ok_iff directives

/-- A buyer of whom nothing is found is left out.  A list that is written stays as it is, and a path
beside another member is no path. -/
example :
    resolveRecord [("buyer", .obj [("work", .obj [("street", .obj [("@path", .str "$.street")])])]),
        ("tags", .arr [.obj []]),
        ("note", .obj [("@path", .str "$.note"), ("@literal", .null)])] (.obj [])
      = .ok [("tags", .arr [.obj []]),
        ("note", .obj [("@path", .str "$.note"), ("@literal", .null)])] := by
  decide +kernel

end Directive

end EventPayload
