import EventPayload.Json.Lexer

/-!
# Reading JSON

The second step of reading: a stack machine puts the tokens together.  Containers that are still
open wait on a stack, and a phase says what may come next, so one step looks at one token and
reading is a fold.

* `Json.Frame` — a container that waits for the value being read.
* `Json.Phase` — what may come next.
* `Json.State.step` — the effect of one token.
* `Json.parse?` — the value of a text.

A key that is repeated keeps its first position and its last value.  At most `maxDepth`
containers may be open at once.  A numeral that stands for no integer of sixty-four bits is read as
the double nearest to it; other readers of JSON round such numerals in other ways.
-/

namespace EventPayload.Json

/-- How many containers may be open at once. -/
def maxDepth : Nat := 127

/-- **A waiting container.**  `items` are the elements before the current one, the last first;
`members` those before the current one, whose key is `key`. -/
inductive Frame where
  | array (items : List Json)
  | object (members : Record) (key : String)

/-- **What may come next.** -/
inductive Phase where
  /-- A value. -/
  | value
  /-- The first element of an array, or its end. -/
  | firstItem
  /-- A comma or the end of an array with these elements, the last first. -/
  | afterItem (items : List Json)
  /-- The first key of an object, or its end. -/
  | firstKey
  /-- The next key of an object with these members. -/
  | key (members : Record)
  /-- The colon behind a key. -/
  | colon (members : Record) (key : String)
  /-- A comma or the end of an object with these members. -/
  | afterMember (members : Record)
  /-- Nothing: the value is complete. -/
  | finished (value : Json)

/-- The waiting containers, the innermost first, and what may come next. -/
structure State where
  frames : List Frame
  phase : Phase

namespace State

/-- Hands a complete value to the innermost waiting container. -/
def complete (frames : List Frame) (value : Json) : State :=
  match frames with
  | [] => ⟨[], .finished value⟩
  | .array items :: rest => ⟨rest, .afterItem (value :: items)⟩
  | .object members key :: rest => ⟨rest, .afterMember (Entries.insert members key value)⟩

def start (frames : List Frame) : Token → Option State
  | .scalar value => some (complete frames value)
  | .openArray => if frames.length < maxDepth then some ⟨frames, .firstItem⟩ else none
  | .openObject => if frames.length < maxDepth then some ⟨frames, .firstKey⟩ else none
  | _ => none

/-- **One token.** -/
def step (state : State) (token : Token) : Option State :=
  let frames := state.frames
  match state.phase, token with
  | .value, token => start frames token
  | .firstItem, .closeArray => some (complete frames (.arr []))
  | .firstItem, token => start (.array [] :: frames) token
  | .afterItem items, .comma => some ⟨.array items :: frames, .value⟩
  | .afterItem items, .closeArray => some (complete frames (.arr items.reverse))
  | .firstKey, .closeObject => some (complete frames (.obj []))
  | .firstKey, .scalar (.str key) => some ⟨frames, .colon [] key⟩
  | .key members, .scalar (.str key) => some ⟨frames, .colon members key⟩
  | .colon members key, .colon => some ⟨.object members key :: frames, .value⟩
  | .afterMember members, .comma => some ⟨frames, .key members⟩
  | .afterMember members, .closeObject => some (complete frames (.obj members))
  | _, _ => none

end State

def ofTokens? (tokens : List Token) : Option Json := do
  match (← tokens.foldlM State.step ⟨[], .value⟩).phase with
  | .finished value => some value
  | _ => none

/-- **Reading.**  The value of a text that is JSON from its first to its last character. -/
def parse? (text : String) : Option Json := do
  ofTokens? (← lex? text)

end EventPayload.Json
