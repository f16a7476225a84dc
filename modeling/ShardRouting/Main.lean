import ShardRouting.CommandLine.Program

/-!
# Command line

Runs the program on the environment, the files and the arguments of the process, prints what comes
of it, and answers with the exit code: two where the run cannot start, one where it fails.
-/

namespace ShardRouting.CommandLine

/-- The environment variables that are set, of those that a run reads. -/
def environment : IO (List (String × String)) :=
  variables.filterMapM fun name => do
    return (← IO.getEnv name).map fun value => (name, value)

/-- The bytes of the file at a path. -/
def readFile (path : String) : IO (Option (List UInt8)) := do
  try
    let bytes ← IO.FS.readBinFile path
    return some bytes.data.toList
  catch _ => return none

/-- The bytes of the configuration file that arguments point to. -/
def readConfiguration (environment : List (String × String)) (args : List String) :
    IO (Option (List UInt8)) :=
  match Request.ofArguments environment args with
  | .ok request => readFile (Configuration.orElse request.path defaultPath)
  | .error _ => return none

/-- Prints what a run did and gives its exit code. -/
def printOutcome (o : Outcome) : IO UInt32 := do
  for e in o.events do
    let teller := if e.ofPlanning then "shard_route::plan" else "shard_route"
    IO.println (e.severity.name ++ " " ++ teller ++ ": " ++ e.text)
  match o.output with
  | some text =>
    IO.println text
    return 0
  | none => return 1

end ShardRouting.CommandLine

open ShardRouting.CommandLine in
/-- Runs the program. -/
def main (args : List String) : IO UInt32 := do
  let environment ← environment
  let file ← readConfiguration environment args
  match run environment (fun _ => file) args with
  | .error fault =>
    IO.eprintln fault.message
    return 2
  | .ok outcome => printOutcome outcome
