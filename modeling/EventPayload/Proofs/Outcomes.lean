import EventPayload.Proofs.Recording
import EventPayload.Proofs.Shapes
import Mathlib.Data.List.Nodup

/-!
# How a run ends

A run of an action goes through five stages.  Each of them can fail for reasons of its own, whatever
becomes of the others, and the first that does decides what is seen of the run: nothing is printed,
and the message is its message.  A run in which no stage fails prints its call and nothing else.

* `Job`, `Stage` — **what a run is to do**, and the stages that it goes through.
* `World.Fails` — **what makes a stage fail**, said of each stage alone.
* `World.FailsFirst` — a stage fails and none before it does.
* `World.pretty` — whether payloads are laid out for reading: the variable decides, then the file,
  and without both they are.
* `World.Ends` — what is seen of a run, and what it asked for.
* `World.run_ends` — **the first stage that fails decides how a run ends**; a stage that does not
  come up asks for nothing.

All of this holds whatever the readers and writers of the world are.
-/

namespace EventPayload.CommandLine

/-- **What a run is to do**: an action on an event. -/
structure Job where
  config : Option String
  action : String
  file : Option String
  compact : Bool

namespace Job

variable (job : Job)

def request : Request :=
  .perform job.config (.run job.action job.file job.compact)

/-- What a job asks for before there are settings, in this order. -/
def settingsAccesses : List Access :=
  job.config.toList.map .file ++ [.environment "EVENTMAP_LOG", .environment "EVENTMAP_PRETTY"]

end Job

/-- **A stage of a run.** -/
inductive Stage where
  | settings
  | action
  | input
  | event
  | call

namespace Stage

/-- The place of a stage among the others. -/
def rank : Stage → Nat
  | settings => 0
  | action => 1
  | input => 2
  | event => 3
  | call => 4

/-- **What a run has asked for** when a stage fails.  The variables come up once the file of
settings has passed, and the event once the action is known. -/
def accesses (job : Job) : Stage → List Access
  | settings => job.config.toList.map .file
  | action => job.settingsAccesses
  | input | event | call => job.settingsAccesses ++ [eventSource job.file]

end Stage

/-! ## Actions and their calls -/

/-- The action that is found is the only one of its name. -/
lemma actionOf_eq_ok_iff (name : String) (action : Action) :
    actionOf name = .ok action ↔ action ∈ Catalog.actions ∧ action.name = name := by
  rw [actionOf]
  constructor
  · intro h
    split at h
    · next found hfound =>
      obtain rfl := Except.ok.inj h
      exact ⟨List.mem_of_find?_eq_some hfound, by simpa using List.find?_some hfound⟩
    · cases h
  · rintro ⟨haction, rfl⟩
    obtain ⟨found, hfound⟩ : ∃ found, Catalog.find? action.name = some found :=
      Option.isSome_iff_exists.mp (List.find?_isSome.mpr ⟨action, haction, by simp⟩)
    have hname : found.name = action.name := by simpa using List.find?_some hfound
    have hmem : found ∈ Catalog.actions := List.mem_of_find?_eq_some hfound
    obtain rfl : found = action :=
      List.inj_on_of_nodup_map Catalog.names_distinct hmem haction hname
    rw [hfound]

/-- No action is found where none has the name. -/
lemma actionOf_eq_error_iff {name : String} {failure : Failure} :
    actionOf name = .error failure ↔
      (∀ action ∈ Catalog.actions, action.name ≠ name) ∧ Failure.unknownAction name = failure := by
  have hnone : Catalog.find? name = none ↔ ∀ action ∈ Catalog.actions, action.name ≠ name := by
    simp [Catalog.find?, List.find?_eq_none]
  rw [actionOf, ← hnone]
  cases Catalog.find? name <;> simp

section Calls

variable {formats : Formats} {action : Action} {text : String}

lemma callOf_eq_ok_iff {call : Call} :
    callOf formats action text = .ok call ↔
      ∃ event, formats.event? text = some event ∧ action.perform event = .ok call := by
  rw [callOf]
  cases formats.event? text <;> simp

/-- A text makes no call for one of two reasons. -/
lemma callOf_eq_error_iff {failure : Failure} :
    callOf formats action text = .error failure ↔
      (formats.event? text = none ∧ Failure.malformedEvent = failure) ∨
        ∃ event cause, formats.event? text = some event ∧ action.perform event = .error cause ∧
          Failure.refused cause = failure := by
  rw [callOf]
  cases formats.event? text <;> simp

end Calls

/-- Naming a call maps nothing. -/
lemma eventName_ne_misshapen {action : Action} (haction : action ∈ Catalog.actions)
    (payload : Record) (cause : ShapeMismatch) :
    action.eventName payload ≠ .error (.misshapen cause) := by
  revert action
  simp only [Catalog.actions, List.forall_mem_cons, List.not_mem_nil, false_implies, implies_true,
    and_true]
  refine ⟨nofun, nofun, nofun, ?_⟩
  change Friendbuy.ownName payload ≠ _
  rw [Friendbuy.ownName]
  split
  · split <;> nofun
  · nofun

namespace World

/-! ## Failures -/

section Failures

variable (world : World) (job : Job)

/-- The text of a file. -/
def text? (name : String) : Option String :=
  (world.files name).bind String.fromUTF8?

/-- **The text of the event** that a job asks for.  Standard input must not be blank. -/
inductive Supplies : String → Prop
  | file {name text : String} (hsource : eventSource job.file = .file name)
      (htext : world.text? name = some text) : Supplies text
  | input {text : String} (hsource : eventSource job.file = .input)
      (htext : String.fromUTF8? world.input = some text) (hblank : Text.isBlank text = false) :
      Supplies text

/-- **What makes a stage fail.**  No rule looks at another stage; what a stage works on is taken for
itself. -/
inductive Fails : Stage → Failure → Prop
  | unreadableSettings {file : String} (hfile : job.config = some file)
      (htext : world.text? file = none) : Fails .settings (.settings (.unreadable file))
  | malformedSettings {file text : String} (hfile : job.config = some file)
      (htext : world.text? file = some text)
      (hparse : world.formats.settings? text = none) :
      Fails .settings (.settings (.malformed file))
  | unknownAction (hname : ∀ action ∈ Catalog.actions, action.name ≠ job.action) :
      Fails .action (.unknownAction job.action)
  | unreadableFile {name : String} (hsource : eventSource job.file = .file name)
      (htext : world.text? name = none) : Fails .input (.unreadableFile name)
  | unreadableInput (hsource : eventSource job.file = .input)
      (htext : String.fromUTF8? world.input = none) : Fails .input .unreadableInput
  | noInput {text : String} (hsource : eventSource job.file = .input)
      (htext : String.fromUTF8? world.input = some text) (hblank : Text.isBlank text = true) :
      Fails .input .noInput
  | malformedEvent {text : String} (htext : world.Supplies job text)
      (hparse : world.formats.event? text = none) : Fails .event .malformedEvent
  | refused {action : Action} {text : String} {event : Json} {cause : Action.Failure}
      (haction : action ∈ Catalog.actions) (hname : action.name = job.action)
      (htext : world.Supplies job text) (hparse : world.formats.event? text = some event)
      (hcause : action.perform event = .error cause) : Fails .call (.refused cause)

/-- **The first stage that fails.** -/
structure FailsFirst (stage : Stage) (failure : Failure) : Prop where
  fails : world.Fails job stage failure
  earlier : ∀ other, other.rank < stage.rank → ∀ failure, ¬ world.Fails job other failure

/-- **A job makes a call**: its action, performed on the event that is supplied. -/
def Makes (call : Call) : Prop :=
  ∃ action ∈ Catalog.actions, action.name = job.action ∧
    ∃ text event, world.Supplies job text ∧ world.formats.event? text = some event ∧
      action.perform event = .ok call

/-! ## What is seen -/

/-- The truth value that the file of settings gives for the layout of payloads. -/
def declaredPretty? : Option Bool := do
  let text ← world.text? (← job.config)
  (← world.formats.settings? text).pretty

/-- **Whether payloads are laid out for reading.** -/
def pretty : Bool :=
  if world.environment "EVENTMAP_PRETTY" = some "true" then true
  else if world.environment "EVENTMAP_PRETTY" = some "false" then false
  else (world.declaredPretty? job).getD true

/-- **What is seen of a run**, and what it asked for. -/
structure Ends (arguments : List String) (exitCode : Nat) (output : String)
    (message : Option String) (accesses : List Access) : Prop where
  exitCode : (world.run arguments).1.exitCode = exitCode
  output : (world.run arguments).1.output = output
  message : (world.run arguments).1.message? = message
  accesses : (world.run arguments).2 = accesses

end Failures

variable {world : World} {job : Job} {failure : Failure}

/-! ## Stage by stage -/

lemma given_eq_error_iff (config : Option String) :
    world.given config = .error failure ↔
      ∃ file, config = some file ∧
        ∃ cause, Settings.ofFile file (world.files file) world.formats.settings? = .error cause ∧
          .settings cause = failure := by
  cases config <;> simp [given]

/-- The settings fail where the file is no text, or the text gives no settings. -/
lemma fails_settings_iff :
    world.Fails job .settings failure ↔ world.given job.config = .error failure := by
  rw [given_eq_error_iff]
  constructor
  · intro h
    cases h with
    | unreadableSettings hfile htext =>
      exact ⟨_, hfile, _, Settings.ofFile_eq_error_iff.mpr (.inl ⟨htext, rfl⟩), rfl⟩
    | malformedSettings hfile htext hparse =>
      exact ⟨_, hfile, _, Settings.ofFile_eq_error_iff.mpr (.inr ⟨_, htext, hparse, rfl⟩), rfl⟩
  · rintro ⟨file, hfile, cause, hcause, rfl⟩
    rcases Settings.ofFile_eq_error_iff.mp hcause with ⟨htext, rfl⟩ | ⟨text, htext, hparse, rfl⟩
    · exact .unreadableSettings hfile htext
    · exact .malformedSettings hfile htext hparse

/-- The name fails where no action has it. -/
lemma fails_action_iff :
    world.Fails job .action failure ↔ actionOf job.action = .error failure := by
  rw [actionOf_eq_error_iff]
  constructor
  · intro h
    cases h with
    | unknownAction hname => exact ⟨hname, rfl⟩
  · rintro ⟨hname, rfl⟩
    exact .unknownAction hname

lemma supplied_of_file {file : Option String} {name : String} (h : eventSource file = .file name) :
    world.supplied file = textOfFile name (world.files name) := by
  rw [supplied, h]

lemma supplied_of_input {file : Option String} (h : eventSource file = .input) :
    world.supplied file = textOfInput world.input := by
  rw [supplied, h]

/-- A text is supplied where the bytes are one, and standard input is not blank. -/
lemma supplies_iff {text : String} :
    world.Supplies job text ↔ world.supplied job.file = .ok text := by
  constructor
  · intro h
    cases h with
    | file hsource htext =>
      rw [supplied_of_file hsource]
      exact textOfFile_eq_ok_iff.mpr htext
    | input hsource htext hblank =>
      rw [supplied_of_input hsource]
      exact textOfInput_eq_ok_iff.mpr ⟨htext, hblank⟩
  · intro h
    rcases eventSource_cases job.file with hsource | ⟨name, hsource⟩
    · rw [supplied_of_input hsource, textOfInput_eq_ok_iff] at h
      exact .input hsource h.1 h.2
    · rw [supplied_of_file hsource, textOfFile_eq_ok_iff] at h
      exact .file hsource h

/-- Bytes that are no text fail, and so does a blank standard input. -/
lemma fails_input_iff :
    world.Fails job .input failure ↔ world.supplied job.file = .error failure := by
  constructor
  · intro h
    cases h with
    | unreadableFile hsource htext =>
      rw [supplied_of_file hsource]
      exact textOfFile_eq_error_iff.mpr ⟨htext, rfl⟩
    | unreadableInput hsource htext =>
      rw [supplied_of_input hsource]
      exact textOfInput_eq_error_iff.mpr (.inl ⟨htext, rfl⟩)
    | noInput hsource htext hblank =>
      rw [supplied_of_input hsource]
      exact textOfInput_eq_error_iff.mpr (.inr ⟨_, htext, hblank, rfl⟩)
  · intro h
    rcases eventSource_cases job.file with hsource | ⟨name, hsource⟩
    · rw [supplied_of_input hsource] at h
      rcases textOfInput_eq_error_iff.mp h with ⟨htext, rfl⟩ | ⟨text, htext, hblank, rfl⟩
      · exact .unreadableInput hsource htext
      · exact .noInput hsource htext hblank
    · rw [supplied_of_file hsource] at h
      obtain ⟨htext, rfl⟩ := textOfFile_eq_error_iff.mp h
      exact .unreadableFile hsource htext

/-- No action of the catalog has a record of the wrong shape to map. -/
lemma not_fails_misshapen (cause : ShapeMismatch) :
    ¬ world.Fails job .call (.refused (.misshapen cause)) := by
  intro h
  cases h with
  | refused haction _ _ _ hcause =>
    exact Action.perform_ne_misshapen _ (eventName_ne_misshapen haction) _ cause hcause

/-- A stage that fails is the first one, or comes behind the first one. -/
lemma Fails.exists_first {stage : Stage} {failure : Failure} (h : world.Fails job stage failure) :
    ∃ first cause, world.FailsFirst job first cause := by
  by_cases hearlier : ∃ other, other.rank < stage.rank ∧ ∃ cause, world.Fails job other cause
  · obtain ⟨other, hrank, cause, hother⟩ := hearlier
    exact hother.exists_first
  · push Not at hearlier
    exact ⟨stage, failure, h, hearlier⟩
termination_by stage.rank

/-! ## The layout of payloads -/

/-- The settings that are given lay payloads out as the file says. -/
lemma given_pretty {held : Settings} (h : world.given job.config = .ok held) :
    held.pretty = (world.declaredPretty? job).getD true := by
  rw [declaredPretty?]
  cases hconfig : job.config with
  | none =>
    rw [hconfig] at h
    obtain rfl := Except.ok.inj h
    rfl
  | some file =>
    rw [hconfig, given, mapError_eq_ok_iff, Settings.ofFile_eq_ok_iff] at h
    obtain ⟨text, declared, htext, hdeclared, rfl⟩ := h
    have hfile : world.text? file = some text := htext
    simp only [Option.bind_eq_bind, Option.bind_some, hfile, hdeclared, Settings.ofDeclared]

/-- The variable wins over the file. -/
lemma effective_pretty {held : Settings} (h : world.given job.config = .ok held) :
    (world.effective held).pretty = world.pretty job := by
  have hpretty : (world.effective held).pretty
      = ((world.environment "EVENTMAP_PRETTY").bind Settings.namedBool?).getD held.pretty := rfl
  rw [hpretty, given_pretty h, pretty]
  cases world.environment "EVENTMAP_PRETTY" with
  | none => rfl
  | some value =>
    simp only [Option.bind_some, Settings.namedBool?, Option.some.injEq]
    split_ifs <;> rfl

/-! ## Runs up to a stage -/

section Runs

variable {arguments : List String} {held : Settings} {action : Action} {text : String}

lemma run_of_yields {result : Except Failure String} {accesses : List Access}
    (hrequest : world.formats.request? arguments = some job.request)
    (h : Yields (respond world.surroundings job.request) result accesses) :
    world.run arguments = (Outcome.ofExcept result, accesses) := by
  have hrun : world.run arguments
      = Prod.map Outcome.ofExcept id ((respond world.surroundings job.request).run.run []) := by
    rw [run, outcome, surroundings_formats, hrequest]
    rfl
  rw [hrun, h []]
  rfl

lemma yields_of_settings (h : world.given job.config = .error failure) :
    Yields (respond world.surroundings job.request) (.error failure)
      (Stage.settings.accesses job) :=
  (yields_settings_error h).bind_error

variable (hheld : world.given job.config = .ok held)

include hheld

/-- Behind the settings come the action, the text and the call. -/
lemma yields_behind {result : Except Failure String} {accesses : List Access}
    (h : Yields (execute world.surroundings (world.effective held)
      (.run job.action job.file job.compact)) result accesses) :
    Yields (respond world.surroundings job.request) result
      (Stage.action.accesses job ++ accesses) :=
  (yields_settings_ok hheld).bind h

lemma yields_of_action (h : actionOf job.action = .error failure) :
    Yields (respond world.surroundings job.request) (.error failure)
      (Stage.action.accesses job) := by
  rw [← List.append_nil (Stage.action.accesses job)]
  exact yields_behind hheld (Yields.of_eq h).bind_error

variable (haction : actionOf job.action = .ok action)

include haction

lemma yields_of_input (h : world.supplied job.file = .error failure) :
    Yields (respond world.surroundings job.request) (.error failure)
      (Stage.input.accesses job) := by
  refine yields_behind hheld ((Yields.of_eq haction).bind ?_)
  exact (h ▸ yields_eventText world job.file).bind_error

/-- **A run that gets its text** ends with what its action makes of it. -/
lemma yields_of_text (htext : world.supplied job.file = .ok text) :
    Yields (respond world.surroundings job.request)
      ((callOf world.formats action text).map
        (render world.formats ((world.effective held).pretty && !job.compact)))
      (Stage.call.accesses job) := by
  have hcall : Yields
      (do
        let call ← ExceptT.mk (pure (callOf world.formats action text))
        return render world.formats ((world.effective held).pretty && !job.compact) call)
      ((callOf world.formats action text).map
        (render world.formats ((world.effective held).pretty && !job.compact))) [] := by
    cases callOf world.formats action text with
    | error failure => exact (Yields.of_eq rfl).bind_error
    | ok call => exact (Yields.of_eq rfl).bind (.pure _)
  refine yields_behind hheld ((Yields.of_eq haction).bind ?_)
  exact (htext ▸ yields_eventText world job.file).bind hcall

end Runs

/-- **What is seen of a run** is read off its end. -/
lemma Ends.of_run {arguments : List String} {ending : Outcome} {accesses : List Access}
    (h : world.run arguments = (ending, accesses)) :
    world.Ends arguments ending.exitCode ending.output ending.message? accesses := by
  constructor <;> rw [h]

/-! ## The first failure -/

/-- **The first failure ends a run.** -/
theorem run_of_failsFirst {arguments : List String} {stage : Stage}
    (hrequest : world.formats.request? arguments = some job.request)
    (h : world.FailsFirst job stage failure) :
    world.run arguments = (.failed failure, stage.accesses job) := by
  obtain ⟨hfails, hearlier⟩ := h
  -- what the stages before this one give
  have hgiven : Stage.settings.rank < stage.rank → ∃ held, world.given job.config = .ok held :=
    fun hrank =>
      exists_ok_of_ne_error fun cause => mt fails_settings_iff.mpr (hearlier _ hrank cause)
  have haction : Stage.action.rank < stage.rank → ∃ action, actionOf job.action = .ok action :=
    fun hrank =>
      exists_ok_of_ne_error fun cause => mt fails_action_iff.mpr (hearlier _ hrank cause)
  cases stage with
  | settings => exact run_of_yields hrequest (yields_of_settings (fails_settings_iff.mp hfails))
  | action =>
    obtain ⟨held, hheld⟩ := hgiven (by decide)
    exact run_of_yields hrequest (yields_of_action hheld (fails_action_iff.mp hfails))
  | input =>
    obtain ⟨held, hheld⟩ := hgiven (by decide)
    obtain ⟨action, haction⟩ := haction (by decide)
    exact run_of_yields hrequest (yields_of_input hheld haction (fails_input_iff.mp hfails))
  | event =>
    obtain ⟨held, hheld⟩ := hgiven (by decide)
    obtain ⟨action, haction⟩ := haction (by decide)
    cases hfails with
    | malformedEvent htext hparse =>
      have hrun := yields_of_text hheld haction (supplies_iff.mp htext)
      rw [callOf_eq_error_iff.mpr (.inl ⟨hparse, rfl⟩)] at hrun
      exact run_of_yields hrequest hrun
  | call =>
    obtain ⟨held, hheld⟩ := hgiven (by decide)
    cases hfails with
    | refused hmem hname htext hparse hcause =>
      have haction := (actionOf_eq_ok_iff _ _).mpr ⟨hmem, hname⟩
      have hrun := yields_of_text hheld haction (supplies_iff.mp htext)
      rw [callOf_eq_error_iff.mpr (.inr ⟨_, _, hparse, hcause, rfl⟩)] at hrun
      exact run_of_yields hrequest hrun

/-- **A run without a failure** prints the call that it makes. -/
theorem run_of_not_fails {arguments : List String}
    (hrequest : world.formats.request? arguments = some job.request)
    (h : ∀ stage failure, ¬ world.Fails job stage failure) :
    ∃ call, world.Makes job call ∧ world.run arguments
      = (.printed (render world.formats (world.pretty job && !job.compact) call),
          Stage.call.accesses job) := by
  obtain ⟨held, hheld⟩ :=
    exists_ok_of_ne_error fun cause => mt fails_settings_iff.mpr (h .settings cause)
  obtain ⟨action, haction⟩ :=
    exists_ok_of_ne_error fun cause => mt fails_action_iff.mpr (h .action cause)
  obtain ⟨text, htext⟩ :=
    exists_ok_of_ne_error fun cause => mt fails_input_iff.mpr (h .input cause)
  obtain ⟨hmem, hname⟩ := (actionOf_eq_ok_iff _ _).mp haction
  have hsupplies := supplies_iff.mpr htext
  have hrun := yields_of_text hheld haction htext
  rw [effective_pretty hheld] at hrun
  cases hcall : callOf world.formats action text with
  | error failure =>
    rcases callOf_eq_error_iff.mp hcall with ⟨hparse, rfl⟩ | ⟨event, cause, hparse, hcause, rfl⟩
    · exact absurd (.malformedEvent hsupplies hparse) (h .event _)
    · exact absurd (.refused hmem hname hsupplies hparse hcause) (h .call _)
  | ok call =>
    obtain ⟨event, hparse, hperform⟩ := callOf_eq_ok_iff.mp hcall
    rw [hcall] at hrun
    exact ⟨call, ⟨action, hmem, hname, text, event, hsupplies, hparse, hperform⟩,
      run_of_yields hrequest hrun⟩

end World

/-- A world with a file of settings, and with one event on standard input. -/
def shop : World where
  files name := if name = "eventmap.toml" then some "[output]\npretty = false".toUTF8 else none
  input := "\x7b\"userId\": \"7\"\x7d".toUTF8
  environment name := if name = "EVENTMAP_PRETTY" then some "TRUE" else none
  formats := .standard

/-- An action that there is not, on a file that there is not. -/
def refund : Job where
  config := some "eventmap.toml"
  action := "trackRefund"
  file := some "event.json"
  compact := true

example : shop.run ["run", "trackSignUp", "-", "--config=eventmap.toml"]
    = (.printed "\x7b\"event\":\"sign_up\",\"data\":\x7b\"id\":\"7\"\x7d\x7d",
      [.file "eventmap.toml", .environment "EVENTMAP_LOG", .environment "EVENTMAP_PRETTY",
        .input]) := by
  decide +kernel

end EventPayload.CommandLine
