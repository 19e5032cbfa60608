/-!
# Arguments

What the command line asks for.

* `CommandLine.Token`, `CommandLine.tokens` — the arguments, options together with their values.
* `CommandLine.Command` — what can be done.
* `CommandLine.Request` — a command with the settings file, or the question for the version.
* `CommandLine.Request.ofArguments?` — the request that arguments make.

The option for the settings file may stand before the command and behind it; the latter wins.  All
other options belong to one place.
-/

namespace EventPayload.CommandLine

/-! ## Tokens -/

/-- **A token.** -/
inductive Token where
  /-- An argument that is no option. -/
  | operand (s : String)
  /-- The option for the settings file, with its value. -/
  | config (file : String)
  /-- The option for output on one line. -/
  | compact
  /-- The question for the version. -/
  | version
  /-- What follows the mark that ends all options. -/
  | remaining (operands : List String)
  /-- An option that is unknown, or that lacks a value or has one too many. -/
  | invalid
deriving DecidableEq

/-- Whether an argument has the form of an option; a dash alone has not. -/
def isOption (argument : String) : Bool :=
  argument.toList.head? = some '-' && argument ≠ "-"

/-- The token of an option that needs no further argument. -/
def ofOption (argument : String) : Token :=
  let cs := argument.toList
  let attached := "--config=".toList
  if argument = "--compact" then .compact
  else if argument = "--version" || cs.take 2 = ['-', 'V'] then .version
  else if attached.isPrefixOf cs then .config (String.ofList (cs.drop attached.length))
  else .invalid

/-- **The tokens of arguments.** -/
def tokens : List String → List Token
  | [] => []
  | "--" :: rest => [.remaining rest]
  | ["--config"] => [.invalid]
  | "--config" :: file :: rest =>
    if isOption file then [.invalid] else .config file :: tokens rest
  | argument :: rest =>
    (if isOption argument then ofOption argument else .operand argument) :: tokens rest

/-! ## Commands -/

/-- **A command.** -/
inductive Command where
  /-- The names of all actions. -/
  | list
  /-- An action on the event in a file, or on standard input if there is none. -/
  | run (action : String) (file : Option String) (compact : Bool)
deriving DecidableEq

/-- What stands behind the name of a command. -/
structure Details where
  config : Option String := none
  compact : Bool := false
  operands : List String := []

namespace Details

/-- **One more token.**  No option may be repeated, and the name of a file is not empty. -/
def add? (details : Details) : Token → Option Details
  | .operand s => some { details with operands := details.operands ++ [s] }
  | .remaining more => some { details with operands := details.operands ++ more }
  | .config file =>
    if details.config.isNone && file ≠ "" then some { details with config := some file } else none
  | .compact => if details.compact then none else some { details with compact := true }
  | .version | .invalid => none

def ofTokens? (tokens : List Token) : Option Details :=
  tokens.foldlM add? {}

/-- The command for the names of actions takes neither operands nor options. -/
def list? (details : Details) : Option Command :=
  if details.operands = [] && !details.compact then some .list else none

/-- The command for an action takes its name and, perhaps, a file. -/
def run? (details : Details) : Option Command :=
  match details.operands with
  | [action] => some (.run action none details.compact)
  | [action, file] => if file = "" then none else some (.run action (some file) details.compact)
  | _ => none

end Details

/-! ## Requests -/

/-- **A request.** -/
inductive Request where
  | version
  | perform (config : Option String) (command : Command)
deriving DecidableEq

namespace Request

/-- The request of a command with its details, behind a settings file given before. -/
def ofDetails? (config : Option String) (command? : Details → Option Command)
    (rest : List Token) : Option Request := do
  let details ← Details.ofTokens? rest
  return .perform (details.config.or config) (← command? details)

def ofTokens? (config : Option String) : List Token → Option Request
  | .version :: _ => some .version
  | .config file :: rest =>
    if config.isNone && file ≠ "" then ofTokens? (some file) rest else none
  | .operand "list" :: rest => ofDetails? config Details.list? rest
  | .operand "run" :: rest => ofDetails? config Details.run? rest
  | _ => none

/-- **The request of arguments**, if they make one. -/
def ofArguments? (arguments : List String) : Option Request :=
  ofTokens? none (tokens arguments)

end Request

end EventPayload.CommandLine
