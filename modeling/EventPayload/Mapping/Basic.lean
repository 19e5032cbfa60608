import EventPayload.Mapping.Draft
import EventPayload.Ruleset

/-!
# Mappings

A mapping is a draft without defects.  It turns a source record into a payload.

* `Mapping` — a draft with the proof that nothing is wrong with it.
* `Draft.build` — a mapping, or the defect that stands in its way.
* `Mapping.run` — the payload of a source record: rules, leftovers, finishing steps.
-/

namespace EventPayload

/-- **A mapping.** -/
structure Mapping extends Draft where
  sound : toDraft.defect? = none

/-- **Building.**  Succeeds exactly when the draft has no defect. -/
def Draft.build (draft : Draft) : Except Defect Mapping :=
  match h : draft.defect? with
  | none => .ok ⟨draft, h⟩
  | some defect => .error defect

/-- **Running a mapping.**  The payload of a source record. -/
def Mapping.run (mapping : Mapping) (source : Record) : Except ShapeMismatch Record :=
  (Ruleset.apply mapping.rules mapping.leftovers source).map (Finisher.runAll mapping.finishers)

theorem Draft.build_eq_ok_iff (draft : Draft) (mapping : Mapping) :
    draft.build = .ok mapping ↔ mapping.toDraft = draft := by
  constructor
  · intro h
    unfold Draft.build at h
    split at h <;> simp_all
    rw [← h]
  · rintro rfl
    unfold Draft.build
    split
    · rfl
    · next h => simp [mapping.sound] at h

theorem Draft.build_eq_error_iff (draft : Draft) (defect : Defect) :
    draft.build = .error defect ↔ draft.defect? = some defect := by
  unfold Draft.build
  split <;> simp_all

end EventPayload
