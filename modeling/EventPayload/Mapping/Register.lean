import EventPayload.Rule

/-!
# Slots that have been taken

While rules are checked, a register keeps the slots that the fields seen so far write.  A slot can
be refused for three reasons: its top-level key is taken, an object stands or is to stand there,
or the same place inside the object is taken.  The register has an index for each.

* `Register` — the three indexes.
* `Register.holder?` — the field that stands in the way of a slot.
* `Register.take` — the register with one more slot in it.
-/

namespace EventPayload

/-- **The slots taken so far**, each with the field that writes it. -/
structure Register where
  /-- Fields that write a top-level key, by that key. -/
  tops : Entries String := []
  /-- For every object that is written into, the first field to do so. -/
  outers : Entries String := []
  /-- Fields that write inside an object, by the object and the key in it. -/
  inners : List ((String × String) × String) := []

namespace Register

/-- **The field in the way.**  A top-level key is taken by a field that writes it or writes inside
it; a place in an object, by a field that writes the object's key or the same place. -/
def holder? (register : Register) : Slot → Option String
  | .top name => (Entries.get? register.tops name).or (Entries.get? register.outers name)
  | .within outer inner =>
    (Entries.get? register.tops outer).or (register.inners.lookup (outer, inner))

/-- **Taking a slot.**  An object keeps the first field that wrote into it. -/
def take (register : Register) (field : String) : Slot → Register
  | .top name => { register with tops := Entries.insert register.tops name field }
  | .within outer inner =>
    { register with
      outers := Entries.addMissing register.outers [(outer, field)]
      inners := ((outer, inner), field) :: register.inners }

end Register

end EventPayload
