import ShardRouting.CommandLine.Log
import ShardRouting.CommandLine.Report
import ShardRouting.Text.Replacement

/-!
# The program

One run: the request of the arguments, the configuration that it points to, and the report or the
failure that comes of it. A run that cannot start says why; one that starts prints a text unless it
fails, and has events. Main content: `loadConfiguration`, `run`, `Outcome.logs` and `Outcome.lines`.
-/

namespace ShardRouting.CommandLine

/-- The version of the program where the environment names no other. -/
def packageVersion : String := "0.1.0"

/-- The version of a build: its tag, or else its branch and commit, or else that of the program. -/
def buildVersion (tag branch commit : String) : String :=
  if !tag.isEmpty then tag
  else if !branch.isEmpty then branch ++ "-" ++ commit
  else packageVersion

/-- Why a configuration cannot be loaded. -/
inductive LoadFault where
  /-- There is no text at a path. -/
  | unreadable (path : String)
  /-- The text is no configuration. -/
  | malformed
  deriving DecidableEq, Repr

/-- The text of a fault. -/
def LoadFault.message : LoadFault → String
  | .unreadable path => "read config " ++ Text.quoted path ++ " error"
  | .malformed => "parse config error"

/-- The configuration in the file at a path, with the log level and the version of a request. -/
def loadConfiguration (read : String → Option (List UInt8)) (path logLevel version : String) :
    Except LoadFault Configuration :=
  let path := Configuration.orElse path defaultPath
  match (read path).bind Text.ofUtf8? with
  | none => .error (.unreadable path)
  | some text =>
    match Configuration.ofToml? text with
    | none => .error .malformed
    | some c => .ok (c.override logLevel version)

/-- Why a run cannot start. -/
inductive StartFault where
  /-- The arguments are no request. -/
  | request (f : RequestFault)
  /-- The configuration cannot be loaded. -/
  | load (f : LoadFault)
  deriving DecidableEq, Repr

/-- The text of a fault. -/
def StartFault.message : StartFault → String
  | .request f => f.message
  | .load f => f.message

/-- What a run did: the text that it printed, unless it failed, and the events that were logged. -/
structure Outcome where
  /-- The printed text. -/
  output : Option String
  /-- The logged events, in order. -/
  events : List Event
  deriving DecidableEq, Repr

namespace Outcome

/-- The log lines of the program itself, each with its severity. -/
def logs (o : Outcome) : List (Severity × String) :=
  (o.events.filter fun e => !e.ofPlanning).map fun e => (e.severity, e.entry)

/-- The lines of the output that are no log lines: what follows the log lines of messages of several
lines, and then the lines of the printed text. -/
def lines (o : Outcome) : List String :=
  o.events.flatMap Event.continuation ++ o.output.elim [] Text.lines

end Outcome

/-- An event that the program itself tells. -/
def told (severity : Severity) (message : String) : Event :=
  { severity, message }

/-- The events of a run, and the lines that it prints unless it fails. -/
def perform (c : Configuration) : Action → List Event × Except Failure (List String)
  | .check =>
    let report := checkReport c.settings
    let summary := told .info ("config ok, " ++ toString c.settings.shards.length ++
      " shard(s), " ++ toString c.settings.tables.length ++ " table(s)")
    (if report.isOk then [summary] else [], report)
  | .route r =>
    let details := (routeDetails c.settings r).map fun detail =>
      { told .debug detail with ofPlanning := true }
    (details, routeReport c.settings r)

/-- What a run with a configuration does. -/
def report (c : Configuration) (a : Action) : Outcome :=
  let started := told .info ("shard-route " ++ c.version.getD "")
  let (events, result) := perform c a
  let (output, failures) : Option String × List Event :=
    match result with
    | .ok lines => (some ("\n".intercalate lines), [])
    | .error f => (none, [told .error f.message])
  ⟨output, ((started :: events) ++ failures).filter (isLogged c.logLevel)⟩

/-- The environment variables that a run reads. -/
def «variables» : List String :=
  [pathVariable, logLevelVariable, "GIT_TAG", "GIT_BRANCH", "GIT_COMMIT"]

/-- A run with environment variables, files and arguments. -/
def run (environment : List (String × String)) (read : String → Option (List UInt8))
    (args : List String) : Except StartFault Outcome := do
  let value (name : String) : String := (environment.lookup name).getD ""
  let version := buildVersion (value "GIT_TAG") (value "GIT_BRANCH") (value "GIT_COMMIT")
  let request ← (Request.ofArguments environment args).mapError .request
  let c ← (loadConfiguration read request.path request.logLevel version).mapError .load
  .ok (report c request.action)

end ShardRouting.CommandLine
