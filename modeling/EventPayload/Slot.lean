import EventPayload.Json.Basic

/-!
# Slots

A slot is a place in the payload: a key at the top, or a key inside an object at the top.

* `Slot.root` — the top-level key under which a slot lies.
* `Slot.display` — the form of a slot in messages.
* `Slot.put`, `Slot.write` — writing a value, or the absence of one, into a payload.
* `Slot.Clash` — whether two slots cannot both be written without one destroying the other.
-/

namespace EventPayload

/-- **A place in the payload.** -/
inductive Slot where
  /-- A key at the top. -/
  | top (name : String)
  /-- A key inside the object at `outer`. -/
  | within (outer inner : String)
deriving DecidableEq

namespace Slot

/-- The top-level key under which the slot lies. -/
def root : Slot → String
  | top name => name
  | within outer _ => outer

def display : Slot → String
  | top name => name
  | within outer inner => outer ++ "." ++ inner

/-! ## Writing -/

/-- The entries under a key that are kept when something is written inside it: those of an object,
and none of any other value. -/
def container (tree : Record) (key : String) : Record :=
  match Entries.get? tree key with
  | some (.obj members) => members
  | _ => []

/-- **Putting a value.**  Inside an object that is absent, or whose place is taken by another kind
of value, the value goes into a new one. -/
def put (tree : Record) (value : Json) : Slot → Record
  | top name => Entries.insert tree name value
  | within outer inner =>
    Entries.insert tree outer (.obj (Entries.insert (container tree outer) inner value))

/-- **Writing.**  The absence of a value writes nothing, not even the surrounding object. -/
def write (slot : Slot) (value : Option Json) (tree : Record) : Record :=
  match value with
  | none => tree
  | some value => slot.put tree value

/-! ## Clashes -/

/-- **Clashing slots.**  Two slots clash when they are the same, or when one is the top-level key
under which the other lies. -/
def Clash (s t : Slot) : Prop :=
  s = t ∨ s = top t.root ∨ t = top s.root

instance : DecidableRel Clash :=
  fun s t => inferInstanceAs (Decidable (s = t ∨ s = top t.root ∨ t = top s.root))

@[simp] theorem clash_top_top (a b : String) : (top a).Clash (top b) ↔ a = b := by
  simp [Clash, root, eq_comm]

@[simp] theorem clash_top_within (a outer inner : String) :
    (top a).Clash (within outer inner) ↔ a = outer := by
  simp [Clash, root]

@[simp] theorem clash_within_top (outer inner a : String) :
    (within outer inner).Clash (top a) ↔ a = outer := by
  simp [Clash, root]

@[simp] theorem clash_within_within (outer inner outer' inner' : String) :
    (within outer inner).Clash (within outer' inner') ↔ outer = outer' ∧ inner = inner' := by
  simp [Clash]

theorem Clash.refl (s : Slot) : s.Clash s :=
  Or.inl rfl

theorem Clash.symm {s t : Slot} (h : s.Clash t) : t.Clash s := by
  rcases h with h | h | h
  · exact Or.inl h.symm
  · exact Or.inr (Or.inr h)
  · exact Or.inr (Or.inl h)

/-! ## Reading back -/

theorem keys_put (tree : Record) (value : Json) (slot : Slot) :
    Entries.keys (slot.put tree value)
      = if slot.root ∈ Entries.keys tree then Entries.keys tree
        else Entries.keys tree ++ [slot.root] := by
  cases slot <;> exact Entries.keys_insert ..

end Slot

end EventPayload
