import ShardRouting.CommandLine.Usage
import ShardRouting.Statement
import ShardRouting.Text.Blank
import ShardRouting.Text.Quoted

/-!
# Requests

What a user asks for: a check of the configuration, or the fragments of one statement, and where to
find the configuration. Environment variables stand in for options that are not used. Main content:
`Request` and `Request.ofArguments`.
-/

namespace ShardRouting.CommandLine

/-- A statement as a user describes it. -/
structure StatementRequest where
  /-- The logical table. -/
  table : String
  /-- The kind of statement. -/
  kind : StatementKind
  /-- Columns with the texts of their values. -/
  values : List (String × String)
  deriving Repr

/-- What a user asks for. -/
inductive Action where
  /-- A check of the configuration. -/
  | check
  /-- The fragments of a statement. -/
  | route (r : StatementRequest)
  deriving Repr

/-- A request. -/
structure Request where
  /-- The path of the configuration file. -/
  path : String
  /-- The least serious events to log, where the user names them. -/
  logLevel : String
  /-- What is asked for. -/
  action : Action
  deriving Repr

/-- Why arguments are no request. -/
inductive RequestFault where
  /-- They use options or commands as these may not be used. -/
  | usage
  /-- The value of a column is no assignment. -/
  | noAssignment (text : String)
  deriving DecidableEq, Repr

/-- The text of a fault. -/
def RequestFault.message : RequestFault → String
  | .usage => "invalid usage"
  | .noAssignment text => "invalid argument " ++ Text.quoted text ++ ", expected column=value"

/-- The environment variable for the path of the configuration file. -/
def pathVariable : String := "SHARD_PROXY_CONFIG"

/-- The environment variable for the log level. -/
def logLevelVariable : String := "SHARD_PROXY_LOG_LEVEL"

/-- The path of the configuration file where none is given. -/
def defaultPath : String := "etc/config.toml"

namespace StatementRequest

/-- The option for the table. -/
def tableFlag : Flag := { letter := some 't', name := "table", required := true }

/-- The option for the kind of statement. -/
def kindFlag : Flag := { letter := some 'k', name := "kind" }

/-- The option for the value of a column. -/
def valueFlag : Flag := { letter := some 'v', name := "value", repeatable := true }

/-- The kind of statement with a name, of those that can be asked for. -/
def kind? (name : String) : Option StatementKind :=
  [StatementKind.select, .insert, .delete].find? fun k => k.name == name

/-- A column and the text of its value, with an equals sign between them and no blanks around. -/
def assignment (text : String) : Except RequestFault (String × String) :=
  let cs := text.toList
  let column := Text.trimmed Text.isBlank (cs.takeWhile (· != '='))
  match cs.dropWhile (· != '='), column with
  | _ :: value, _ :: _ => .ok (String.ofList column, Text.trim (String.ofList value))
  | _, _ => .error (.noAssignment text)

/-- The statement that arguments describe. -/
def ofArguments (args : List String) : Except RequestFault StatementRequest := do
  match Scanned.ofArguments? [tableFlag, kindFlag, valueFlag] [] args with
  | none => .error .usage
  | some s =>
    let kindName := (s.values kindFlag).headD StatementKind.select.name
    match (s.values tableFlag).head?, kind? kindName with
    | some table, some kind =>
      .ok { table, kind, values := ← (s.values valueFlag).mapM assignment }
    | _, _ => .error .usage

end StatementRequest

namespace Action

/-- The commands that can be given. -/
def commands : List String := ["check", "route"]

/-- The action of a command, where one is given. -/
def ofCommand : Option (String × List String) → Except RequestFault Action
  | none => .ok .check
  | some ("check", args) =>
    if (Scanned.ofArguments? [] [] args).isSome then .ok .check else .error .usage
  | some ("route", args) => (StatementRequest.ofArguments args).map .route
  | some _ => .error .usage

end Action

namespace Request

/-- The option for the path of the configuration file. -/
def pathFlag : Flag := { letter := some 'c', name := "config" }

/-- The option for the log level. -/
def logLevelFlag : Flag := { name := "log-level" }

/-- The value of an option: the one given, or else the one of an environment variable. -/
def given? (environment : List (String × String)) (s : Scanned) (f : Flag) (name : String) :
    Option String :=
  (s.values f).head?.or (environment.lookup name)

/-- The request of arguments in an environment of variables. -/
def ofArguments (environment : List (String × String)) (args : List String) :
    Except RequestFault Request :=
  match Scanned.ofArguments? [pathFlag, logLevelFlag] Action.commands args with
  | none => .error .usage
  | some s =>
    (Action.ofCommand s.command).map fun action =>
      { path := (given? environment s pathFlag pathVariable).getD defaultPath
        logLevel := (given? environment s logLevelFlag logLevelVariable).getD ""
        action }

end Request

end ShardRouting.CommandLine
