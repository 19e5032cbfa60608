import EventPayload.Proofs.LookUps

/-!
# What an action reads of an event

An action comes to know of an event only what its directives look up in it.  This file says which
paths a directive can look up, and that two events cannot be told apart by an action that finds the
same at all of its paths.

* `Directive.Reaches` — **reaching a path**, in terms of directives as they are written.
* `Directive.paths`, `Directive.reaches_iff` — the same as a list, read off what a directive asks
  for.
* `Directive.resolve_congr` — a directive has the same value for two events, or fails for both
  alike, if all of its paths are looked up in both with the same outcome.
* `Action.Reads`, `Action.paths` — the paths of all directives of an action.
* `perform_of_same_reads` — **an action sees nothing else**.
-/

namespace EventPayload

namespace Directive

/-! ## Paths that are reached -/

/-- **Reaching a path.**  An object with nothing but a path in it reaches that path, and any other
object reaches what its members reach, unless it has nothing but a literal in it.  Nothing is
reached through texts, lists and other values. -/
inductive Reaches (path : String) : Json → Prop
  | lookUp : Reaches path (.obj [("@path", .str path)])
  | member {members : Record} {key : String} {directive : Json}
      (hpath : ∀ value, members ≠ [("@path", value)])
      (hliteral : ∀ value, members ≠ [("@literal", value)])
      (hentry : (key, directive) ∈ members) (h : Reaches path directive) :
      Reaches path (.obj members)

lemma reaches_obj_iff (path : String) (members : Record) :
    Reaches path (.obj members) ↔
      members = [("@path", .str path)] ∨
      (∀ value, members ≠ [("@path", value)]) ∧ (∀ value, members ≠ [("@literal", value)]) ∧
        ∃ key directive, (key, directive) ∈ members ∧ Reaches path directive := by
  constructor
  · rintro (_ | ⟨hpath, hliteral, hentry, h⟩)
    · exact Or.inl rfl
    · exact Or.inr ⟨hpath, hliteral, _, _, hentry, h⟩
  · rintro (rfl | ⟨hpath, hliteral, key, directive, hentry, h⟩)
    · exact .lookUp
    · exact .member hpath hliteral hentry h

mutual

/-- **The paths of a directive**, in the order in which they are looked up. -/
def paths : Directive → List String
  | literal _ => []
  | path target => target.asText?.toList
  | group members => membersPaths members

def membersPaths : List (String × Directive) → List String
  | [] => []
  | (_, directive) :: rest => paths directive ++ membersPaths rest

end

lemma mem_membersPaths (path : String) (members : Entries Directive) :
    path ∈ membersPaths members ↔ ∃ entry ∈ members, path ∈ entry.2.paths := by
  induction members with
  | nil => simp [membersPaths]
  | cons entry rest ih => simp [membersPaths, ih]

lemma mem_membersPaths_ofMembers (path : String) (members : Record) :
    path ∈ membersPaths (ofMembers members) ↔
      ∃ key directive, (key, directive) ∈ members ∧ path ∈ (ofJson directive).paths := by
  rw [mem_membersPaths, ofMembers_eq_map]
  simp

/-- **The paths that are reached are those of the directive.** -/
theorem reaches_iff (path : String) (directive : Json) :
    Reaches path directive ↔ path ∈ (ofJson directive).paths := by
  induction directive using Json.induction with
  | obj members ih =>
    rw [reaches_obj_iff]
    obtain ⟨value, rfl, hread⟩ | ⟨value, rfl, hread⟩ | ⟨hpath, hliteral, hread⟩ :=
      ofJson_obj members
    · rw [hread, paths, Option.mem_toList]
      cases value <;> simp [Json.asText?]
    · rw [hread, paths]
      simp
    · rw [hread, paths, mem_membersPaths_ofMembers]
      simp only [hpath, hliteral, ne_eq, not_false_eq_true, implies_true, true_and, false_or]
      refine exists_congr fun key => exists_congr fun directive => and_congr_right fun hentry => ?_
      exact ih _ hentry
  | _ => exact ⟨nofun, nofun⟩

/-! ## Events that agree at all paths -/

variable {event other : Json}

lemma lookupAt_congr {target : Json}
    (h : ∀ path ∈ (Directive.path target).paths,
      Query.lookup event path = Query.lookup other path) :
    lookupAt event target = lookupAt other target := by
  cases target with
  | str text => exact h text (by simp [paths, Json.asText?])
  | _ => rfl

mutual

/-- **A directive sees only its paths.** -/
theorem resolve_congr : ∀ directive : Directive,
    (∀ path ∈ directive.paths, Query.lookup event path = Query.lookup other path) →
      resolve event directive = resolve other directive
  | literal value, _ => rfl
  | path target, h => by rw [resolve, resolve, lookupAt_congr h]
  | group members, h => by rw [resolve, resolve, resolveMembers_congr members h]

theorem resolveMembers_congr : ∀ members : List (String × Directive),
    (∀ path ∈ membersPaths members, Query.lookup event path = Query.lookup other path) →
      resolveMembers event members = resolveMembers other members
  | [], _ => rfl
  | (key, directive) :: rest, h => by
    have hfirst := resolve_congr directive fun path hpath =>
      h path (List.mem_append_left _ hpath)
    have hrest := resolveMembers_congr rest fun path hpath =>
      h path (List.mem_append_right _ hpath)
    rw [resolveMembers, resolveMembers, hfirst, hrest]

end

end Directive

/-! ## Actions -/

namespace Action

variable (action : Action)

/-- **What an action reads**: the paths that its directives reach. -/
def Reads (path : String) : Prop :=
  ∃ field directive, (field, directive) ∈ action.directives ∧ Directive.Reaches path directive

/-- The paths of all directives of an action. -/
def paths : List String :=
  Directive.membersPaths (Directive.ofMembers action.directives)

theorem reads_iff (path : String) : action.Reads path ↔ path ∈ action.paths := by
  simp only [Reads, paths, Directive.mem_membersPaths_ofMembers, Directive.reaches_iff]

variable {action} {event other : Json}

lemma payload_congr
    (h : ∀ path, action.Reads path → Query.lookup event path = Query.lookup other path) :
    action.payload event = action.payload other := by
  have hresolve := Directive.resolveMembers_congr (Directive.ofMembers action.directives)
    fun path hpath => h path ((action.reads_iff path).mpr hpath)
  rw [payload, payload, Directive.resolveRecord, Directive.resolveRecord, hresolve]

/-- After its directives an action has no more to do with the event. -/
lemma perform_congr (hevent : event.isObject = true) (hother : other.isObject = true)
    (h : action.payload event = action.payload other) :
    action.perform event = action.perform other := by
  rw [action.perform_of_isObject hevent, action.perform_of_isObject hother, h]

/-- The paths of an action that looks its fields up are those of its places. -/
lemma LooksUp.wellFormed_of_mem_paths {steps : List Preparation} (h : action.LooksUp steps)
    {path : String} (hpath : path ∈ action.paths) : Query.WellFormed path := by
  rw [paths, h.directives, Directive.ofMembers_lookUpAll, Directive.mem_membersPaths] at hpath
  obtain ⟨entry, hentry, hpath⟩ := hpath
  obtain ⟨place, hplace, rfl⟩ := List.mem_map.mp hentry
  obtain rfl : place.2 = path := by simpa [Directive.paths, Json.asText?, eq_comm] using hpath
  exact h.wellFormed place hplace

end Action

open Friendbuy

/-- **An action sees only what its directives name.**  Two events in which it looks up the same at
every path that its directives reach give it the same record, and the same call or failure.  The
calls of the catalog list well-formed paths, so for them it is enough that the events have the same
values, or none, at the paths that are listed. -/
theorem perform_of_same_reads :
    (∀ (action : Action) (members others : Record),
      (∀ path, action.Reads path →
        Query.lookup (.obj members) path = Query.lookup (.obj others) path) →
      action.payload (.obj members) = action.payload (.obj others) ∧
        action.perform (.obj members) = action.perform (.obj others)) ∧
    ∀ action ∈ Catalog.actions, ∀ members others : Record,
      (∀ path ∈ action.paths,
        Query.valueAt? (.obj members) path = Query.valueAt? (.obj others) path) →
      action.perform (.obj members) = action.perform (.obj others) := by
  refine ⟨fun action members others h => ?_, fun action haction members others h => ?_⟩
  · have hpayload := Action.payload_congr h
    exact ⟨hpayload, Action.perform_congr rfl rfl hpayload⟩
  · obtain ⟨steps, hlooks⟩ := catalog_looksUp action haction
    refine Action.perform_congr rfl rfl (Action.payload_congr fun path hreads => ?_)
    have hpath := (action.reads_iff path).mp hreads
    have hwell := hlooks.wellFormed_of_mem_paths hpath
    rw [Query.lookup_of_wellFormed hwell, Query.lookup_of_wellFormed hwell, h path hpath]

example : trackSignUp.paths =
    ["$.userId", "$.anonymousId", "$.properties.email", "$.properties.isNewCustomer",
      "$.properties.loyaltyStatus", "$.properties.firstName", "$.properties.lastName",
      "$.properties.name", "$.properties.age", "$.properties.birthday",
      "$.properties.friendbuyAttributes", "$.context.locale"] := by decide

/-- An action with directives of all kinds; only those of `who` reach a path. -/
def badge : Action where
  name := "badge"
  directives := [("who", .obj [("id", lookUp "$.userId"), ("mail", lookUp "$.traits.email")]),
    ("source", .obj [("@literal", lookUp "$.secret")]), ("tags", .arr [lookUp "$.secret"]),
    ("note", .obj [("@path", .str "$.secret"), ("kind", .str "plain")])]
  mapping := { rules := [], leftovers := .pass, sound := by decide }
  eventName _ := .ok "badge"

/-- A visit with a secret at its root. -/
def visit : Record :=
  [("userId", .str "7"), ("traits", .obj [("email", .str "a@b.c")]), ("secret", .str "s")]

/-- The same visit without the secret, in another order, and with more of its traits. -/
def openVisit : Record :=
  [("traits", .obj [("phone", .str "555"), ("email", .str "a@b.c")]), ("userId", .str "7")]

theorem visits_not_told_apart :
    (∀ path, badge.Reads path →
      Query.lookup (.obj visit) path = Query.lookup (.obj openVisit) path) ∧
    (∀ path ∈ trackCustomer.paths,
      Query.valueAt? (.obj visit) path = Query.valueAt? (.obj openVisit) path) ∧
    badge.perform (.obj visit) = badge.perform (.obj openVisit) ∧
    trackCustomer.perform (.obj visit) = trackCustomer.perform (.obj openVisit) := by
  have hbadge : ∀ path, badge.Reads path →
      Query.lookup (.obj visit) path = Query.lookup (.obj openVisit) path := by
    intro path hreads
    have hall : ∀ path ∈ badge.paths,
        Query.lookup (.obj visit) path = Query.lookup (.obj openVisit) path := by decide
    exact hall path ((badge.reads_iff path).mp hreads)
  have hprofile : ∀ path ∈ trackCustomer.paths,
      Query.valueAt? (.obj visit) path = Query.valueAt? (.obj openVisit) path := by decide
  exact ⟨hbadge, hprofile, (perform_of_same_reads.1 badge visit openVisit hbadge).2,
    perform_of_same_reads.2 trackCustomer List.mem_cons_self visit openVisit hprofile⟩

end EventPayload
