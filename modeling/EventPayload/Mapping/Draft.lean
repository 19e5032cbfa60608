import EventPayload.Mapping.Finisher
import EventPayload.Mapping.Register

/-!
# Drafts of mappings and their defects

A draft lists rules in the order in which they were declared.  Before it is used it is checked:
no field may have two rules, no two rules may write slots that clash, and the rules of a list's
elements obey the same two laws and hold no further lists.

* `Draft` — rules, leftovers and finishing steps as declared.
* `Defect` — what can be wrong with a draft.
* `Register.claim`, `Register.claimElement` — one more entry in a register of slots.
* `Accepted.declare` — one more declaration among those accepted.
* `Draft.check`, `Draft.defect?` — all declarations in turn; the first one refused is the defect.

The rules of a list's elements have no order of declaration; they are checked in the order of
their names.
-/

namespace EventPayload

/-- **A draft.** -/
structure Draft where
  rules : List (String × Rule)
  leftovers : Leftovers := .drop
  finishers : List Finisher := []

/-- **What can be wrong.** -/
inductive Defect where
  /-- A field has two rules. -/
  | repeatedField (name : String)
  /-- Two fields write slots that clash; the slot is that of the second. -/
  | contested (slot : Slot) (first second : String)
  /-- The elements of a list have a field that is a list again. -/
  | nestedList (owner field : String)
deriving DecidableEq

namespace Defect

/-- The field that a `nestedList` is about, with its owner. -/
def nestedName (owner field : String) : String :=
  owner ++ "." ++ field

def message : Defect → String
  | repeatedField name => "field '" ++ name ++ "' is mapped more than once"
  | contested slot first second =>
    "fields '" ++ first ++ "' and '" ++ second ++ "' both write output '" ++ slot.display ++ "'"
  | nestedList owner field =>
    "array field '" ++ nestedName owner field ++ "' cannot contain another array field"

end Defect

/-! ## Checking -/

/-- **Claiming the slot of an entry.**  A rule that writes nothing claims nothing. -/
def Register.claim (register : Register) (entry : String × Rule) : Except Defect Register :=
  match entry.2.slot? entry.1 with
  | none => .ok register
  | some slot =>
    match register.holder? slot with
    | some first => .error (.contested slot first entry.1)
    | none => .ok (register.take entry.1 slot)

/-- Claiming the slot of an entry among the rules of a list's elements, which hold no lists. -/
def Register.claimElement (owner : String) (register : Register) (entry : String × Rule) :
    Except Defect Register :=
  if entry.2.isEach then .error (.nestedList owner entry.1) else register.claim entry

/-- The register of the rules of a list's elements, in the order of their names. -/
def elementRegister (owner : String) (rules : Ruleset) : Except Defect Register :=
  (Entries.sorted rules).foldlM (Register.claimElement owner) {}

/-- What is wrong inside a rule. -/
def innerCheck (owner : String) : Rule → Except Defect Unit
  | .each _ rules => (elementRegister owner rules).map fun _ => ()
  | _ => .ok ()

/-- **The declarations accepted so far**, with the register of their slots. -/
structure Accepted where
  rules : Ruleset := []
  register : Register := {}

/-- **Accepting a declaration.**  A repeated name is refused first, then what is wrong inside the
rule, then a slot that is taken. -/
def Accepted.declare (accepted : Accepted) (entry : String × Rule) : Except Defect Accepted :=
  if Entries.contains accepted.rules entry.1 then .error (.repeatedField entry.1)
  else
    (innerCheck entry.1 entry.2).bind fun _ =>
      (accepted.register.claim entry).map fun register =>
        { rules := accepted.rules ++ [entry], register }

/-- **Checking a draft**, declaration by declaration. -/
def Draft.check (draft : Draft) : Except Defect Accepted :=
  draft.rules.foldlM Accepted.declare {}

/-- **The defect of a draft**, if it has one. -/
def Draft.defect? (draft : Draft) : Option Defect :=
  match draft.check with
  | .ok _ => none
  | .error defect => some defect

end EventPayload
