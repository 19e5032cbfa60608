import EventPayload.Text.Blank
import EventPayload.Toml.Document

/-!
# Settings

What a run can be told besides its arguments: a filter for log messages, and whether payloads are
laid out for reading.  A file may give settings, and variables of the environment win over it.

* `Settings` — the two, with their defaults.
* `Settings.Declared`, `Settings.ofDeclared` — what a text declares of them, and the settings that it
  gives by that.
* `Settings.Declared.ofText?` — what a TOML document declares.
* `Settings.ofFile` — the settings of a file, or why there are none.
* `Settings.override` — the effect of the environment.

A document may leave everything out and may hold anything else besides; only a value of the wrong
type is an error.
-/

namespace EventPayload

/-- **Settings.** -/
structure Settings where
  /-- Which log messages are shown. -/
  filter : String := "eventmap=info,destination_actions=info"
  /-- Whether payloads are laid out with one entry a line. -/
  pretty : Bool := true
deriving DecidableEq

namespace Settings

/-- **What is declared.**  Either setting may be left out. -/
structure Declared where
  filter : Option String
  pretty : Option Bool
deriving DecidableEq

/-- **The settings of a declaration.**  What is left out has its default. -/
def ofDeclared (declared : Declared) : Settings :=
  let defaults : Settings := {}
  ⟨declared.filter.getD defaults.filter, declared.pretty.getD defaults.pretty⟩

/-! ## Documents -/

def text? : Toml.Value → Option String
  | .text s => some s
  | _ => none

def boolean? : Toml.Value → Option Bool
  | .boolean b => some b
  | _ => none

/-- **The sole setting of a group**, if it is given.  A group is a table, or a list that starts with
the setting; a moment counts as a table without members. -/
def sole? (name : String) : Toml.Value → Option (Option Toml.Value)
  | .table _ members => some (Entries.get? members name)
  | .list items => some items.head?
  | .moment => some none
  | _ => none

/-- The setting of a given name in a group of a given name, if it is declared. -/
def declared? {α : Type} (root : Toml.Table) (group name : String)
    (read? : Toml.Value → Option α) : Option (Option α) :=
  match Entries.get? root group with
  | none => some none
  | some value => do
    match ← sole? name value with
    | none => some none
    | some setting => (read? setting).map some

/-- **What a table declares.** -/
def Declared.ofTable? (root : Toml.Table) : Option Declared := do
  let filter ← declared? root "logging" "filter" text?
  let pretty ← declared? root "output" "pretty" boolean?
  return ⟨filter, pretty⟩

/-- **What a TOML document declares**, given its text. -/
def Declared.ofText? (text : String) : Option Declared :=
  (Toml.parse? text).bind ofTable?

/-! ## Files -/

/-- **Why a file gives no settings.** -/
inductive Failure where
  /-- It is not there, or not a text. -/
  | unreadable (file : String)
  /-- It declares nothing: it is no document, or a setting is of the wrong type. -/
  | malformed (file : String)
deriving DecidableEq

def Failure.message : Failure → String
  | unreadable file => "Failed to read config file " ++ file
  | malformed file => "Failed to parse config file " ++ file

/-- **The settings of a file**, given its name and, if it can be read, its bytes.  What their text
declares is up to `read?`. -/
def ofFile (file : String) (bytes : Option ByteArray)
    (read? : String → Option Declared := Declared.ofText?) : Except Failure Settings :=
  match bytes.bind String.fromUTF8? with
  | none => .error (.unreadable file)
  | some text =>
    match read? text with
    | none => .error (.malformed file)
    | some declared => .ok (ofDeclared declared)

section Files

variable {file : String} {bytes : Option ByteArray} {read? : String → Option Declared}

theorem ofFile_eq_ok_iff {settings : Settings} :
    ofFile file bytes read? = .ok settings ↔
      ∃ text declared, bytes.bind String.fromUTF8? = some text ∧ read? text = some declared ∧
        ofDeclared declared = settings := by
  rw [ofFile]
  cases bytes.bind String.fromUTF8? with
  | none => simp
  | some text => cases hread : read? text <;> simp [hread]

/-- A file gives no settings for one of two reasons. -/
theorem ofFile_eq_error_iff {cause : Failure} :
    ofFile file bytes read? = .error cause ↔
      (bytes.bind String.fromUTF8? = none ∧ Failure.unreadable file = cause) ∨
        ∃ text, bytes.bind String.fromUTF8? = some text ∧ read? text = none ∧
          Failure.malformed file = cause := by
  rw [ofFile]
  cases bytes.bind String.fromUTF8? with
  | none => simp
  | some text => cases hread : read? text <;> simp [hread]

end Files

/-! ## The environment -/

def filterVariable : String := "EVENTMAP_LOG"

def prettyVariable : String := "EVENTMAP_PRETTY"

/-- The filter that a variable names; a blank value names none. -/
def namedFilter? (value : String) : Option String :=
  if Text.isBlank value then none else some value

/-- The truth value that a variable names; only two spellings name one. -/
def namedBool? (value : String) : Option Bool :=
  if value = "true" then some true else if value = "false" then some false else none

/-- **Overriding.**  The variables win over the settings where they name a value. -/
def override (filter pretty : Option String) (settings : Settings) : Settings where
  filter := (filter.bind namedFilter?).getD settings.filter
  pretty := (pretty.bind namedBool?).getD settings.pretty

end Settings

end EventPayload
