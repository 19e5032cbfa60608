import EventPayload.CommandLine.Run
import EventPayload.Proofs.Results

/-!
# Runs in a world

A run asks its surroundings for files, standard input and variables.  Here they belong to a world
that gives the same answers all the time and keeps a list of what it was asked for, so that a run
has two results: its end, and its accesses in their order.  The readers and writers of the world are
any functions at all.

* `CommandLine.Access` — what can be asked for.
* `CommandLine.World` — **a world**; `World.surroundings` gives its answers and notes the accesses.
* `CommandLine.Yields` — **what a step of a run yields**, and after which accesses.
* `Yields.bind`, `Yields.bind_error` — two steps in a row: the accesses of the first stand before
  those of the second, and a step that fails is the last one.
* `World.yields_settings_ok`, `World.yields_eventText` — the two inputs of a run.
-/

namespace EventPayload.CommandLine

/-- **An access to the surroundings.** -/
inductive Access where
  | file (name : String)
  | input
  | environment (name : String)
deriving DecidableEq

/-- **Where the text of the event comes from.**  A dash stands for standard input. -/
def eventSource : Option String → Access
  | none => .input
  | some file => if file = "-" then .input else .file file

lemma eventSource_cases (file : Option String) :
    eventSource file = .input ∨ ∃ name, eventSource file = .file name := by
  cases file with
  | none => exact Or.inl rfl
  | some name =>
    rw [eventSource]
    split
    · exact Or.inl rfl
    · exact Or.inr ⟨name, rfl⟩

/-- **A world** that stays as it is. -/
structure World where
  /-- The bytes of the files that can be read. -/
  files : String → Option ByteArray
  /-- The bytes on standard input. -/
  input : ByteArray
  /-- The values of the variables that are set. -/
  environment : String → Option String
  /-- How texts are read and written. -/
  formats : Formats

/-- A step of a run that notes its accesses. -/
abbrev Step (α : Type) := ExceptT Failure (StateM (List Access)) α

/-- **What a step of a run yields**, and what it asks for. -/
def Yields {α : Type} (step : Step α) (result : Except Failure α) (accesses : List Access) : Prop :=
  ∀ seen, step.run.run seen = (result, seen ++ accesses)

/-! ## Steps in a row -/

namespace Yields

variable {α β : Type} {step : Step α} {next : α → Step β} {a : α} {failure : Failure}
  {result : Except Failure β} {accesses others : List Access}

lemma pure (a : α) : Yields (Pure.pure a) (.ok a) [] := fun seen => by
  rw [List.append_nil]
  rfl

/-- A step that asks for nothing. -/
lemma of_eq {computed result : Except Failure α} (h : computed = result) :
    Yields (ExceptT.mk (Pure.pure computed)) result [] := fun seen => by
  rw [List.append_nil, h]
  rfl

/-- **Two steps in a row.** -/
lemma bind (h : Yields step (.ok a) accesses) (hnext : Yields (next a) result others) :
    Yields (step >>= next) result (accesses ++ others) := fun seen => by
  have hrun : (step >>= next).run.run seen = (next a).run.run (seen ++ accesses) := by
    rw [ExceptT.run_bind, StateT.run_bind, h seen]
    rfl
  rw [hrun, hnext, List.append_assoc]

/-- **A step that fails is the last one.** -/
lemma bind_error (h : Yields step (.error failure) accesses) :
    Yields (step >>= next) (.error failure) accesses := fun seen => by
  rw [ExceptT.run_bind, StateT.run_bind, h seen]
  rfl

end Yields

/-! ## A world as surroundings -/

namespace World

variable (world : World)

/-- **The surroundings that a world makes.**  Every access is noted behind those before it. -/
def surroundings : Surroundings (StateM (List Access)) where
  file name := fun seen => (world.files name, seen ++ [.file name])
  input := fun seen => (world.input, seen ++ [.input])
  environment name := fun seen => (world.environment name, seen ++ [.environment name])
  formats := world.formats

@[simp] lemma surroundings_formats : world.surroundings.formats = world.formats := rfl

/-- **A run in a world**: its end, and its accesses. -/
def run (arguments : List String) : Outcome × List Access :=
  StateT.run (outcome world.surroundings arguments) []

lemma yields_file (name : String) :
    Yields (liftM (world.surroundings.file name)) (.ok (world.files name)) [.file name] :=
  fun _ => rfl

lemma yields_environment (name : String) :
    Yields (liftM (world.surroundings.environment name)) (.ok (world.environment name))
      [.environment name] :=
  fun _ => rfl

/-! ## The settings -/

/-- The settings that the file gives; those of a run without a file are the defaults. -/
def given (config : Option String) : Except Failure Settings :=
  match config with
  | none => .ok {}
  | some file =>
    (Settings.ofFile file (world.files file) world.formats.settings?).mapError .settings

/-- The settings of a run, which are those given, changed by the variables. -/
def effective (held : Settings) : Settings :=
  held.override (world.environment Settings.filterVariable)
    (world.environment Settings.prettyVariable)

variable {world} {config file : Option String} {name : String} {held : Settings} {failure : Failure}

/-- **Settings are refused** before any variable is asked for. -/
lemma yields_settings_error (h : world.given config = .error failure) :
    Yields (settings world.surroundings config) (.error failure) (config.toList.map .file) := by
  cases config with
  | none => cases h
  | some file => exact (world.yields_file file).bind (Yields.of_eq h).bind_error

/-- **Settings are taken** from the file and then from the variables. -/
lemma yields_settings_ok (h : world.given config = .ok held) :
    Yields (settings world.surroundings config) (.ok (world.effective held))
      (config.toList.map .file ++
        [.environment Settings.filterVariable, .environment Settings.prettyVariable]) := by
  have hvariables : Yields
      (do
        let filter ← liftM (world.surroundings.environment Settings.filterVariable)
        let pretty ← liftM (world.surroundings.environment Settings.prettyVariable)
        return held.override filter pretty)
      (.ok (world.effective held))
      [.environment Settings.filterVariable, .environment Settings.prettyVariable] :=
    (world.yields_environment _).bind ((world.yields_environment _).bind (.pure _))
  cases config with
  | none =>
    obtain rfl : {} = held := Except.ok.inj h
    exact (Yields.pure _).bind hvariables
  | some file => exact (world.yields_file file).bind ((Yields.of_eq h).bind hvariables)

/-! ## The text of the event -/

/-- The text that there is for an event. -/
def supplied (file : Option String) : Except Failure String :=
  match eventSource file with
  | .file name => textOfFile name (world.files name)
  | _ => textOfInput world.input

/-- **The text of the event** is all that its source is asked for. -/
lemma yields_eventText (world : World) (file : Option String) :
    Yields (eventText world.surroundings file) (world.supplied file) [eventSource file] := by
  cases file with
  | none => exact fun _ => rfl
  | some file =>
    rw [eventText, supplied, eventSource]
    by_cases hdash : file = "-"
    · rw [if_pos hdash, Option.filter_some_neg (by simpa using hdash)]
      exact fun _ => rfl
    · rw [if_neg hdash, Option.filter_some_pos (by simpa using hdash)]
      exact fun _ => rfl

end World

end EventPayload.CommandLine
