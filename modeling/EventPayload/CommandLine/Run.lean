import EventPayload.Catalog
import EventPayload.CommandLine.Arguments
import EventPayload.Json.Printer
import EventPayload.Json.Reader
import EventPayload.Settings

/-!
# Running a command

A run asks its surroundings for files, standard input and variables, in a definite order, and ends
with a text or with the first failure.  How arguments, settings and events are read and how payloads
are written is no concern of a run: it takes the formats that its surroundings come with.

* `CommandLine.Formats` — how texts are read and written; `Formats.standard` has the readers and
  writers of this library.
* `CommandLine.Surroundings` — access to the outside in some monad.
* `CommandLine.Failure` — what can go wrong, in the order in which it is found.
* `CommandLine.settings`, `CommandLine.eventText` — the inputs of a run.
* `CommandLine.callOf` — the call that an action makes of an event's text.
* `CommandLine.respond` — the text that answers a request.
* `CommandLine.Outcome`, `CommandLine.outcome` — the end of a run, for any arguments.
-/

namespace EventPayload.CommandLine

/-- **How texts are read and written.**  A reader gives nothing for a text that it refuses. -/
structure Formats where
  /-- The request that arguments make. -/
  request? : List String → Option Request
  /-- What a text of settings declares. -/
  settings? : String → Option Settings.Declared
  /-- The value that the text of an event stands for. -/
  event? : String → Option Json
  /-- The text of a payload, laid out for reading. -/
  pretty : Json → String
  /-- The text of a payload on one line. -/
  compact : Json → String

/-- The readers and writers of this library. -/
def Formats.standard : Formats where
  request? := Request.ofArguments?
  settings? := Settings.Declared.ofText?
  event? := Json.parse?
  pretty := Json.pretty
  compact := Json.compact

/-- **The surroundings of a run.** -/
structure Surroundings (m : Type → Type) where
  /-- The bytes of a file, if it can be read. -/
  file : String → m (Option ByteArray)
  /-- The bytes on standard input. -/
  input : m ByteArray
  /-- The value of a variable of the environment, if it is set. -/
  environment : String → m (Option String)
  /-- How texts are read and written. -/
  formats : Formats := .standard

/-- **What can go wrong.** -/
inductive Failure where
  /-- The file of settings gives none. -/
  | settings (cause : Settings.Failure)
  /-- No action has the name. -/
  | unknownAction (name : String)
  /-- The file of the event is not there, or not a text. -/
  | unreadableFile (file : String)
  /-- Standard input is not a text. -/
  | unreadableInput
  /-- Standard input is blank. -/
  | noInput
  /-- The text of the event stands for no value. -/
  | malformedEvent
  /-- The action makes no call of the event. -/
  | refused (cause : Action.Failure)
deriving DecidableEq

def Failure.message : Failure → String
  | settings cause => cause.message
  | unknownAction name => "Unknown action '" ++ name ++ "' (see `eventmap list`)"
  | unreadableFile file => "Failed to read event file " ++ file
  | unreadableInput => "Failed to read event from stdin"
  | noInput => "No event on stdin"
  | malformedEvent => "Event is not valid JSON"
  | refused cause => cause.message

/-! ## The parts that need no surroundings -/

def versionText : String := "eventmap 0.1.0"

def listing : String :=
  String.intercalate "\n" (Catalog.actions.map Action.name)

def actionOf (name : String) : Except Failure Action :=
  match Catalog.find? name with
  | some action => .ok action
  | none => .error (.unknownAction name)

/-- The text in the bytes of a file. -/
def textOfFile (file : String) (bytes : Option ByteArray) : Except Failure String :=
  match bytes.bind String.fromUTF8? with
  | some text => .ok text
  | none => .error (.unreadableFile file)

/-- The text in the bytes of standard input, which must not be blank. -/
def textOfInput (bytes : ByteArray) : Except Failure String :=
  match String.fromUTF8? bytes with
  | some text => if Text.isBlank text then .error .noInput else .ok text
  | none => .error .unreadableInput

/-- **The call** that an action makes of the text of an event. -/
def callOf (formats : Formats) (action : Action) (text : String) : Except Failure Call :=
  match formats.event? text with
  | some event => (action.perform event).mapError .refused
  | none => .error .malformedEvent

def render (formats : Formats) (pretty : Bool) (call : Call) : String :=
  if pretty then formats.pretty call.toJson else formats.compact call.toJson

/-! ## What the parts give -/

theorem textOfFile_eq_ok_iff {file text : String} {bytes : Option ByteArray} :
    textOfFile file bytes = .ok text ↔ bytes.bind String.fromUTF8? = some text := by
  rw [textOfFile]
  cases bytes.bind String.fromUTF8? <;> simp

theorem textOfFile_eq_error_iff {file : String} {bytes : Option ByteArray} {failure : Failure} :
    textOfFile file bytes = .error failure ↔
      bytes.bind String.fromUTF8? = none ∧ Failure.unreadableFile file = failure := by
  rw [textOfFile]
  cases bytes.bind String.fromUTF8? <;> simp

theorem textOfInput_eq_ok_iff {bytes : ByteArray} {text : String} :
    textOfInput bytes = .ok text ↔
      String.fromUTF8? bytes = some text ∧ Text.isBlank text = false := by
  rw [textOfInput]
  cases String.fromUTF8? bytes with
  | none => simp
  | some read =>
    cases hblank : Text.isBlank read <;> simpa [hblank] using fun h : read = text => h ▸ hblank

theorem textOfInput_eq_error_iff {bytes : ByteArray} {failure : Failure} :
    textOfInput bytes = .error failure ↔
      (String.fromUTF8? bytes = none ∧ Failure.unreadableInput = failure) ∨
        ∃ text, String.fromUTF8? bytes = some text ∧ Text.isBlank text = true ∧
          Failure.noInput = failure := by
  rw [textOfInput]
  cases String.fromUTF8? bytes with
  | none => simp
  | some read => cases hblank : Text.isBlank read <;> simp [hblank]

/-! ## Runs -/

variable {m : Type → Type} [Monad m]

/-- **The settings of a run**, from a file if there is one and from the environment. -/
def settings (around : Surroundings m) (config : Option String) : ExceptT Failure m Settings := do
  let given ← match config with
    | none => pure {}
    | some file => do
      let bytes ← around.file file
      let read := Settings.ofFile file bytes around.formats.settings?
      ExceptT.mk (pure (read.mapError .settings))
  let filter ← around.environment Settings.filterVariable
  let pretty ← around.environment Settings.prettyVariable
  return given.override filter pretty

/-- **The text of the event.**  A dash in place of a file stands for standard input. -/
def eventText (around : Surroundings m) (file : Option String) : ExceptT Failure m String := do
  match file.filter (· ≠ "-") with
  | some file => ExceptT.mk ((textOfFile file) <$> around.file file)
  | none => ExceptT.mk (textOfInput <$> around.input)

/-- **The text that answers a command**, without the line break at its end. -/
def execute (around : Surroundings m) (settings : Settings) :
    Command → ExceptT Failure m String
  | .list => pure listing
  | .run name file compact => do
    let action ← ExceptT.mk (pure (actionOf name))
    let text ← eventText around file
    let call ← ExceptT.mk (pure (callOf around.formats action text))
    return render around.formats (settings.pretty && !compact) call

/-- **The text that answers a request**, without the line break at its end. -/
def respond (around : Surroundings m) : Request → ExceptT Failure m String
  | .version => pure versionText
  | .perform config command => do
    let settings ← settings around config
    execute around settings command

/-! ## Outcomes -/

/-- **The end of a run.** -/
inductive Outcome where
  /-- A text was written to standard output. -/
  | printed (text : String)
  /-- Something went wrong. -/
  | failed (failure : Failure)
  /-- The arguments make no request. -/
  | misused
deriving DecidableEq

namespace Outcome

def exitCode : Outcome → Nat
  | printed _ => 0
  | failed _ => 1
  | misused => 2

def output : Outcome → String
  | printed text => text ++ "\n"
  | _ => ""

def message? : Outcome → Option String
  | failed failure => some failure.message
  | _ => none

def ofExcept : Except Failure String → Outcome
  | .ok text => printed text
  | .error failure => failed failure

end Outcome

/-- **The end of a run** with given arguments. -/
def outcome (around : Surroundings m) (arguments : List String) : m Outcome :=
  match around.formats.request? arguments with
  | none => pure .misused
  | some request => Outcome.ofExcept <$> (respond around request).run

end EventPayload.CommandLine
