import EventPayload.Entries
import EventPayload.Number.Basic

/-!
# JSON values

* `Json` — the values; an object is a list of entries in a definite order.
* `Record` — the entries of an object, the form in which events and payloads are passed around.
* `Json.Kind` — the six kinds of value, with the names used in messages.
* `Json.WellFormed` — no object at any depth repeats a key.
* `Json.induction` — induction through the items of lists and the members of objects.
* `Json.asText?`, `Json.asRecord?`, `Json.isObject` — views.

Equality of values is decidable, key order included.
-/

namespace EventPayload

/-- **A JSON value.** -/
inductive Json where
  | null
  | bool (b : Bool)
  | num (n : Number)
  | str (s : String)
  | arr (items : List Json)
  | obj (members : List (String × Json))
deriving Inhabited

abbrev Record := Entries Json

namespace Json

/-! ## Kinds and views -/

inductive Kind where
  | null
  | boolean
  | number
  | string
  | array
  | object
deriving DecidableEq

def Kind.name : Kind → String
  | null => "null"
  | boolean => "boolean"
  | number => "number"
  | string => "string"
  | array => "array"
  | object => "object"

def kind : Json → Kind
  | null => .null
  | bool _ => .boolean
  | num _ => .number
  | str _ => .string
  | arr _ => .array
  | obj _ => .object

def asText? : Json → Option String
  | str s => some s
  | _ => none

def asRecord? : Json → Option Record
  | obj members => some members
  | _ => none

def isObject : Json → Bool
  | obj _ => true
  | _ => false

def isNull : Json → Bool
  | null => true
  | _ => false

/-! ## Well-formed values -/

mutual

/-- **No repeated keys.**  The keys of every object, at every depth, are distinct. -/
def WellFormed : Json → Prop
  | arr items => AllWellFormed items
  | obj members => Entries.Distinct members ∧ MembersWellFormed members
  | _ => True

def AllWellFormed : List Json → Prop
  | [] => True
  | item :: rest => WellFormed item ∧ AllWellFormed rest

def MembersWellFormed : List (String × Json) → Prop
  | [] => True
  | (_, value) :: rest => WellFormed value ∧ MembersWellFormed rest

end

/-! ## Induction -/

section Induction

set_option linter.unusedSectionVars false

variable {motive : Json → Prop} (null : motive null) (bool : ∀ b, motive (bool b))
  (num : ∀ n, motive (num n)) (str : ∀ s, motive (str s))
  (arr : ∀ items, (∀ item ∈ items, motive item) → motive (arr items))
  (obj : ∀ members : Record, (∀ entry ∈ members, motive entry.2) → motive (obj members))

include null bool num str arr obj

mutual

/-- **Induction on values**, through the items of lists and the members of objects. -/
theorem induction : ∀ value, motive value
  | .null => null
  | .bool b => bool b
  | .num n => num n
  | .str s => str s
  | .arr items => arr items (induction_items items)
  | .obj members => obj members (induction_members members)

theorem induction_items : ∀ items : List Json, ∀ item ∈ items, motive item
  | [] => List.forall_mem_nil _
  | item :: rest => List.forall_mem_cons.mpr ⟨induction item, induction_items rest⟩

theorem induction_members : ∀ members : List (String × Json), ∀ entry ∈ members, motive entry.2
  | [] => List.forall_mem_nil _
  | (_, value) :: rest => List.forall_mem_cons.mpr ⟨induction value, induction_members rest⟩

end

end Induction

theorem wellFormed_arr_iff (items : List Json) :
    (arr items).WellFormed ↔ ∀ item ∈ items, item.WellFormed := by
  rw [WellFormed]
  induction items with
  | nil => simp [AllWellFormed]
  | cons item rest ih => rw [AllWellFormed, ih, List.forall_mem_cons]

theorem membersWellFormed_iff (members : Record) :
    MembersWellFormed members ↔ ∀ entry ∈ members, entry.2.WellFormed := by
  induction members with
  | nil => simp [MembersWellFormed]
  | cons entry rest ih => rw [MembersWellFormed, ih, List.forall_mem_cons]

theorem wellFormed_obj_iff (members : Record) :
    (obj members).WellFormed ↔
      Entries.Distinct members ∧ ∀ entry ∈ members, entry.2.WellFormed := by
  rw [WellFormed, membersWellFormed_iff]

/-! ## Decidable equality -/

mutual

def decEq : (a b : Json) → Decidable (a = b)
  | null, null => .isTrue rfl
  | bool a, bool b => decidable_of_iff (a = b) (by simp)
  | num a, num b => decidable_of_iff (a = b) (by simp)
  | str a, str b => decidable_of_iff (a = b) (by simp)
  | arr a, arr b => @decidable_of_iff _ (a = b) (by simp) (decEqItems a b)
  | obj a, obj b => @decidable_of_iff _ (a = b) (by simp) (decEqMembers a b)
  | null, bool _ | null, num _ | null, str _ | null, arr _ | null, obj _
  | bool _, null | bool _, num _ | bool _, str _ | bool _, arr _ | bool _, obj _
  | num _, null | num _, bool _ | num _, str _ | num _, arr _ | num _, obj _
  | str _, null | str _, bool _ | str _, num _ | str _, arr _ | str _, obj _
  | arr _, null | arr _, bool _ | arr _, num _ | arr _, str _ | arr _, obj _
  | obj _, null | obj _, bool _ | obj _, num _ | obj _, str _ | obj _, arr _ => .isFalse nofun

def decEqItems : (a b : List Json) → Decidable (a = b)
  | [], [] => .isTrue rfl
  | [], _ :: _ => .isFalse nofun
  | _ :: _, [] => .isFalse nofun
  | x :: xs, y :: ys =>
    @decidable_of_iff _ (x = y ∧ xs = ys) (by simp)
      (@instDecidableAnd _ _ (decEq x y) (decEqItems xs ys))

def decEqMembers : (a b : List (String × Json)) → Decidable (a = b)
  | [], [] => .isTrue rfl
  | [], _ :: _ => .isFalse nofun
  | _ :: _, [] => .isFalse nofun
  | (k, v) :: xs, (l, w) :: ys =>
    @decidable_of_iff _ (k = l ∧ v = w ∧ xs = ys) (by simp [and_assoc])
      (@instDecidableAnd _ _ inferInstance
        (@instDecidableAnd _ _ (decEq v w) (decEqMembers xs ys)))

end

instance : DecidableEq Json := decEq

end Json

end EventPayload
