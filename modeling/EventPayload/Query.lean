import EventPayload.Json.Basic

/-!
# Paths into an event

A path starts at the root mark `$` and goes down segment by segment, each behind a dot.

* `Query.segments?` — the segments of a path.
* `Query.child?` — one step down.
* `Query.follow` — all steps.
* `Query.lookup` — the value at a path.

A segment without characters is malformed, and found to be so when it is reached: a path that
leaves the event before is simply absent.
-/

namespace EventPayload

/-- A path that is not one. -/
structure InvalidPath where
  text : String
deriving DecidableEq

def InvalidPath.message (invalid : InvalidPath) : String :=
  "invalid @path '" ++ invalid.text ++ "': must start with '$'"

namespace Query

/-- **The segments of a path.**  The root mark alone has none. -/
def segments? : List Char → Option (List (List Char))
  | ['$'] => some []
  | '$' :: '.' :: rest => some (rest.splitOn '.')
  | _ => none

/-- A position in a list: digits, perhaps behind a plus sign, below `2 ^ 64`. -/
def index? (segment : List Char) : Option Nat :=
  let digits := if segment.head? = some '+' then segment.tail else segment
  if digits ≠ [] ∧ digits.all Char.isDigit ∧ digitsValue digits < twoPow 64 then
    some (digitsValue digits)
  else none

/-- **One step down.**  A member of an object, or an element of a list by its position. -/
def child? (segment : List Char) : Json → Option Json
  | .obj members => Entries.get? members (String.ofList segment)
  | .arr items => (index? segment).bind fun i => items[i]?
  | _ => none

/-- **All steps down**, of the path that `invalid` would report. -/
def follow (invalid : InvalidPath) : List (List Char) → Json → Except InvalidPath (Option Json)
  | [], value => .ok (some value)
  | [] :: _, _ => .error invalid
  | segment :: rest, value =>
    match child? segment value with
    | some next => follow invalid rest next
    | none => .ok none

/-- **Looking up a path.**  The value there, or its absence. -/
def lookup (event : Json) (path : String) : Except InvalidPath (Option Json) :=
  match segments? path.toList with
  | some segments => follow ⟨path⟩ segments event
  | none => .error ⟨path⟩

end Query

end EventPayload
