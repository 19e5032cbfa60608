import EventPayload.Proofs.Writes
import Mathlib.Data.List.Basic

/-!
# The last write wins

Writes may clash in any way when nobody has looked at them before: a value may take the place of an
object, an object may take the place of a value, and a write may come without a value at all.  This
file says what any such sequence leaves behind, in terms of the last writes alone.

* `writeInTurn` — a sequence of writes, some of which have no value.
* `history` — **the history of a tree**: each of its entries counts as a first write at its key, and
  the writes that have a value follow.
* `lastUnder?`, `standing?` — the last write under a key at the top, and what the last write that has
  a say in it makes of a place inside the object there.
* `LastWriteWins`, `LastWriteWins.put` — **what the last writes have to do with a tree**, and that a
  further write keeps it so.
* `writeInTurn_settles` — hence any sequence of writes ends in a tree where the last writes win, with
  its keys in the order in which they were first written under.
-/

namespace EventPayload

/-! ## Sequences of writes -/

/-- **Writing in turn.** -/
def writeInTurn (writes : List (Slot × Option Json)) (tree : Record) : Record :=
  writes.foldl (fun tree w => w.1.write w.2 tree) tree

/-- The writes that have a value. -/
def effective (writes : List (Slot × Option Json)) : List (Slot × Json) :=
  writes.filterMap fun w => w.2.map fun value => (w.1, value)

/-- **The history of a tree.** -/
def history (tree : Record) (writes : List (Slot × Option Json)) : List (Slot × Json) :=
  tree.map (fun entry => (Slot.top entry.1, entry.2)) ++ effective writes

/-- A write without a value does nothing. -/
lemma writeInTurn_eq_writeAll (writes : List (Slot × Option Json)) (tree : Record) :
    writeInTurn writes tree = writeAll (effective writes) tree := by
  induction writes generalizing tree with
  | nil => rfl
  | cons w rest ih =>
    obtain ⟨slot, value⟩ := w
    cases value with
    | none => exact ih tree
    | some value => exact ih (slot.put tree value)

/-- A tree is what the writes of its own entries leave behind. -/
lemma writeInTurn_eq_history {tree : Record} (htree : Entries.Distinct tree)
    (writes : List (Slot × Option Json)) :
    writeInTurn writes tree = writeAll (history tree writes) [] := by
  have hentries : writeAll (tree.map fun entry => (Slot.top entry.1, entry.2)) [] = tree := by
    rw [writeAll_top]
    exact Entries.overlay_of_distinct htree
  rw [writeInTurn_eq_writeAll, history, writeAll, writeAll, List.foldl_append]
  exact congrArg (writeAll (effective writes)) hentries.symm

lemma effective_filter (writes : List (Slot × Option Json)) (key : String) :
    (effective writes).filter (fun w => w.1.root = key)
      = effective (writes.filter fun w => w.1.root = key) := by
  rw [effective, effective, List.filter_filterMap, List.filterMap_filter]
  refine List.filterMap_congr fun w _ => ?_
  cases w.2 <;> simp [Option.filter]

/-! ## Last writes -/

/-- The first element of a kind is also the first of a narrower kind to which it belongs. -/
lemma find?_of_narrower {α : Type} {p q : α → Bool} {xs : List α} (hnarrower : ∀ x, q x → p x)
    (hfirst : ∀ x ∈ xs.find? p, q x) : xs.find? q = xs.find? p := by
  induction xs with
  | nil => rfl
  | cons x rest ih =>
    rw [List.find?_cons] at hfirst ⊢
    rw [List.find?_cons]
    by_cases hx : p x = true
    · simp only [hx] at hfirst ⊢
      rw [hfirst x rfl]
    · have hq : ¬ q x = true := fun hq => hx (hnarrower x hq)
      simp only [hx, hq] at hfirst ⊢
      exact ih hfirst

/-- **The last write under a key** at the top. -/
def lastUnder? (key : String) (writes : List (Slot × Json)) : Option (Slot × Json) :=
  writes.reverse.find? fun w => w.1.root = key

lemma root_of_lastUnder? {key : String} {writes : List (Slot × Json)} {w : Slot × Json}
    (h : lastUnder? key writes = some w) : w.1.root = key := by
  have hroot := List.find?_some h
  exact of_decide_eq_true hroot

/-- What a write makes of a place inside an object: the written value at the place itself, and the
member of a value that is written in place of the whole object. -/
def memberWritten? (inner : String) : Slot × Json → Option Json
  | (.within _ _, value) => some value
  | (.top _, value) => value.asRecord?.bind fun members => Entries.get? members inner

/-- **What stands at a place** inside the object under a key: the last write at the place has a say
in it if the key itself was not written after it, and else the last write at the key. -/
def standing? (outer inner : String) (writes : List (Slot × Json)) : Option Json :=
  let last? := writes.reverse.find? fun w => w.1 = .within outer inner ∨ w.1 = .top outer
  last?.bind (memberWritten? inner)

/-- **The last write wins.**  What the writes of a history have to do with the tree that they leave
behind. -/
structure LastWriteWins (writes : List (Slot × Json)) (tree : Record) : Prop where
  /-- Nothing stands at a key that was never written under. -/
  untouched : ∀ key, lastUnder? key writes = none → Entries.get? tree key = none
  /-- A key that was written itself, and not under since, has the value that was written. -/
  whole : ∀ key name value, lastUnder? key writes = some (.top name, value) →
    Entries.get? tree key = some value
  /-- A key that was last written inside has an object, and what stands in it is settled place by
  place. -/
  inside : ∀ key outer inner value, lastUnder? key writes = some (.within outer inner, value) →
    ∃ members, Entries.get? tree key = some (.obj members) ∧
      ∀ place, Entries.get? members place = standing? key place writes

/-! ## One more write -/

lemma lastUnder?_concat (key : String) (writes : List (Slot × Json)) (slot : Slot) (value : Json) :
    lastUnder? key (writes ++ [(slot, value)])
      = if slot.root = key then some (slot, value) else lastUnder? key writes := by
  by_cases hroot : slot.root = key <;> simp [lastUnder?, hroot]

lemma standing?_concat_within (outer inner place : String) (writes : List (Slot × Json))
    (value : Json) :
    standing? outer place (writes ++ [(.within outer inner, value)])
      = if inner = place then some value else standing? outer place writes := by
  by_cases hplace : inner = place <;> simp [standing?, memberWritten?, hplace]

lemma standing?_concat_of_ne {slot : Slot} {key : String} (hroot : slot.root ≠ key) (place : String)
    (writes : List (Slot × Json)) (value : Json) :
    standing? key place (writes ++ [(slot, value)]) = standing? key place writes := by
  have hwithin : slot ≠ .within key place := by
    rintro rfl
    exact hroot rfl
  have htop : slot ≠ .top key := by
    rintro rfl
    exact hroot rfl
  simp [standing?, hwithin, htop]

namespace LastWriteWins

variable {writes : List (Slot × Json)} {tree : Record} (h : LastWriteWins writes tree)

include h

/-- What a write inside an object finds there is what stands there, also where the object is yet to
be made or takes the place of another value. -/
lemma get?_membersOf (key place : String) :
    Entries.get? (Slot.membersOf (Entries.get? tree key)) place = standing? key place writes := by
  -- a last write under the key that is not inside its object is also the last with a say in the place
  have hsay : (∀ w ∈ lastUnder? key writes, w.1 = .top key) →
      standing? key place writes = (lastUnder? key writes).bind (memberWritten? place) := by
    intro hlast
    refine congrArg (Option.bind · (memberWritten? place)) (find?_of_narrower ?_ ?_)
    · simp only [decide_eq_true_eq]
      rintro w (hw | hw) <;> rw [hw] <;> rfl
    · intro w hw
      simp [hlast w hw]
  cases hlast : lastUnder? key writes with
  | none =>
    rw [h.untouched key hlast, hsay (by simp [hlast]), hlast]
    rfl
  | some w =>
    obtain ⟨slot, value⟩ := w
    cases slot with
    | within outer inner =>
      obtain ⟨members, hread, hmembers⟩ := h.inside key outer inner value hlast
      rw [hread]
      exact hmembers place
    | top name =>
      obtain rfl : name = key := root_of_lastUnder? hlast
      rw [h.whole name name value hlast, hsay (by simp [hlast]), hlast]
      cases value <;> rfl

/-- **One more write.** -/
theorem put (slot : Slot) (value : Json) :
    LastWriteWins (writes ++ [(slot, value)]) (slot.put tree value) := by
  constructor
  case untouched =>
    intro key
    rw [lastUnder?_concat, Slot.get?_put]
    split
    · exact nofun
    · exact h.untouched key
  case whole =>
    intro key name other
    rw [lastUnder?_concat, Slot.get?_put]
    split
    · intro hlast
      obtain ⟨rfl, rfl⟩ := Prod.mk.inj (Option.some.inj hlast)
      rfl
    · exact h.whole key name other
  case inside =>
    intro key outer inner other
    rw [lastUnder?_concat, Slot.get?_put]
    split
    · next hroot =>
      intro hlast
      obtain ⟨rfl, rfl⟩ := Prod.mk.inj (Option.some.inj hlast)
      obtain rfl : outer = key := hroot
      refine ⟨_, rfl, fun place => ?_⟩
      rw [Entries.get?_insert, standing?_concat_within, h.get?_membersOf]
    · next hroot =>
      intro hlast
      simp only [standing?_concat_of_ne hroot]
      exact h.inside key outer inner other hlast

end LastWriteWins

/-! ## Any number of writes -/

/-- **In any list of writes the last one wins.** -/
theorem writeAll_lastWriteWins (writes : List (Slot × Json)) :
    LastWriteWins writes (writeAll writes []) := by
  induction writes using List.reverseRecOn with
  | nil => exact ⟨fun _ _ => rfl, nofun, nofun⟩
  | append_singleton writes w ih =>
    rw [writeAll, List.foldl_append]
    exact ih.put w.1 w.2

/-- Writes elsewhere make no difference to a key. -/
lemma get?_writeInTurn (writes : List (Slot × Option Json)) (tree : Record) (key : String) :
    Entries.get? (writeInTurn writes tree) key
      = Entries.get? (writeInTurn (writes.filter fun w => w.1.root = key) tree) key := by
  simp only [writeInTurn_eq_writeAll, get?_writeAll, ← effective_filter, List.filter_filter,
    Bool.and_self]

/-- **Any sequence of writes.**  The last write wins, the entries of the tree being the first writes;
the keys of the tree stay where they are and new ones follow in the order in which they were first
written under; and no key depends on what is written elsewhere. -/
theorem writeInTurn_settles {tree : Record} (htree : Entries.Distinct tree)
    (writes : List (Slot × Option Json)) :
    LastWriteWins (history tree writes) (writeInTurn writes tree) ∧
      Entries.keys (writeInTurn writes tree)
        = Entries.keys tree ++ (((effective writes).map fun w => w.1.root).filter
            (· ∉ Entries.keys tree)).eraseDups ∧
      ∀ key, Entries.get? (writeInTurn writes tree) key
        = Entries.get? (writeInTurn (writes.filter fun w => w.1.root = key) tree) key := by
  refine ⟨?_, ?_, get?_writeInTurn writes tree⟩
  · rw [writeInTurn_eq_history htree]
    exact writeAll_lastWriteWins _
  · rw [writeInTurn_eq_writeAll]
    exact keys_writeAll_onto _ tree

/-- A ticket whose buyer is a plain value. -/
def ticket : Record :=
  [("buyer", .str "guest"), ("seat", .obj [("row", .str "1"), ("side", .str "left")]), ("paid", .null)]

/-- The buyer becomes an object, is replaced by another one, and is written into again. -/
def ticketWrites : List (Slot × Option Json) :=
  [(.within "buyer" "id", some (.str "7")), (.within "gift" "to", none),
    (.within "seat" "side", some (.str "right")), (.top "note", some (.str "hi")),
    (.within "gift" "to", some (.str "Bo")),
    (.top "buyer", some (.obj [("mail", .str "a@b.c"), ("id", .str "8")])),
    (.within "buyer" "name", some (.str "Ada")), (.top "seat", none)]

def ticketAfter : Record :=
  [("buyer", .obj [("mail", .str "a@b.c"), ("id", .str "8"), ("name", .str "Ada")]),
    ("seat", .obj [("row", .str "1"), ("side", .str "right")]), ("paid", .null), ("note", .str "hi"),
    ("gift", .obj [("to", .str "Bo")])]

theorem ticket_settles :
    Entries.Distinct ticket ∧ writeInTurn ticketWrites ticket = ticketAfter ∧
      LastWriteWins (history ticket ticketWrites) ticketAfter ∧
      Entries.keys ticketAfter = Entries.keys ticket ++ ["note", "gift"] := by
  have hticket : Entries.Distinct ticket := by decide
  have hafter : writeInTurn ticketWrites ticket = ticketAfter := rfl
  obtain ⟨hwins, hkeys, -⟩ := writeInTurn_settles hticket ticketWrites
  rw [hafter] at hwins hkeys
  exact ⟨hticket, hafter, hwins, hkeys⟩

end EventPayload
