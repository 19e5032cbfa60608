import EventPayload.Json.Printer
import EventPayload.Query

/-!
# Directives

A directive says where a field of the source record comes from.  It is written in JSON: an object
with the single key `@path` looks a path up in the event, one with the single key `@literal`
stands for its value, any other object is a group of directives, and all else stands for itself.

* `Directive` — what a directive asks for.
* `Directive.ofJson` — reading one; every JSON value is a directive.
* `Directive.resolve` — its value for an event, or the absence of one.
* `Directive.resolveRecord` — the source record that named directives give.

A group drops its absent members; one that had members and lost them all is absent itself.
-/

namespace EventPayload

/-- **A directive.** -/
inductive Directive where
  /-- The value itself. -/
  | literal (value : Json)
  /-- The value at a path; only a text can be one. -/
  | path (target : Json)
  /-- An object of directives. -/
  | group (members : List (String × Directive))

namespace Directive

/-! ## Reading -/

mutual

/-- **Reading a directive.** -/
def ofJson : Json → Directive
  | .obj [(key, value)] =>
    if key = "@path" then .path value
    else if key = "@literal" then .literal value
    else .group [(key, ofJson value)]
  | .obj members => .group (ofMembers members)
  | value => .literal value

def ofMembers : List (String × Json) → List (String × Directive)
  | [] => []
  | (key, value) :: rest => (key, ofJson value) :: ofMembers rest

end

/-! ## Resolving -/

/-- The value at a path; anything but a text is an invalid one, shown as its JSON text. -/
def lookupAt (event : Json) : Json → Except InvalidPath (Option Json)
  | .str text => Query.lookup event text
  | other => .error ⟨other.compact⟩

mutual

/-- **Resolving.**  The value that a directive has for an event. -/
def resolve (event : Json) : Directive → Except InvalidPath (Option Json)
  | literal value => .ok (some value)
  | path target => lookupAt event target
  | group members =>
    (resolveMembers event members).map fun resolved =>
      if resolved.isEmpty && !members.isEmpty then none else some (.obj resolved)

/-- The members that have a value, in order; the first failure wins. -/
def resolveMembers (event : Json) : List (String × Directive) → Except InvalidPath Record
  | [] => .ok []
  | (key, directive) :: rest => do
    let found ← resolve event directive
    let others ← resolveMembers event rest
    match found with
    | some value => return (key, value) :: others
    | none => return others

end

/-- **The source record** that named directives give for an event. -/
def resolveRecord (directives : Record) (event : Json) : Except InvalidPath Record :=
  resolveMembers event (ofMembers directives)

end Directive

end EventPayload
