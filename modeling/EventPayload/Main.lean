import EventPayload.CommandLine.Run

/-!
# The program

The only module that touches files, standard streams and the environment.

* `CommandLine.surroundings` — the real surroundings of a run.
* `main` — one run.
-/

namespace EventPayload.CommandLine

/-- All bytes that a stream still holds. -/
partial def readAll (stream : IO.FS.Stream) (seen : ByteArray) : IO ByteArray := do
  let bytes ← stream.read 65536
  if bytes.isEmpty then return seen else readAll stream (seen ++ bytes)

def readFile? (file : String) : IO (Option ByteArray) := do
  try return some (← IO.FS.readBinFile file)
  catch _ => return none

/-- **The real surroundings.** -/
def surroundings : Surroundings IO where
  file := readFile?
  input := do readAll (← IO.getStdin) ByteArray.empty
  environment := fun name => IO.getEnv name
  formats := .standard

end EventPayload.CommandLine

open EventPayload.CommandLine

/-- **One run.**  Messages go to standard error. -/
def main (arguments : List String) : IO UInt32 := do
  let ending ← outcome surroundings arguments
  IO.print ending.output
  match ending with
  | .printed _ => pure ()
  | .failed failure => IO.eprintln ("Error: " ++ failure.message)
  | .misused => IO.eprintln "Usage: eventmap [--config FILE] list | run ACTION [FILE] [--compact]"
  return ending.exitCode.toUInt32
