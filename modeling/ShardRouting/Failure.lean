import ShardRouting.Datasource.Dialect
import ShardRouting.Key
import ShardRouting.Statement

/-!
# Failures

Why settings are refused, why a statement has no target, and why its execution failed; each cause
is a constructor, and the wording stands in one function per type. Main content: `SettingsFault`,
`RoutingFault`, `Cause` and `Failure`; `Failure.forStatement` names the statement that failed and
keeps a name that is already there.
-/

namespace ShardRouting

/-- Who refers to a shard. -/
inductive ShardOwner where
  /-- A router. -/
  | router (id : String)
  /-- A table. -/
  | table (name : String)
  deriving DecidableEq, Repr

/-- The wording of an owner. -/
def ShardOwner.text : ShardOwner → String
  | .router id => "router " ++ Text.quoted id
  | .table name => "table " ++ Text.quoted name

/-- Why settings are refused. -/
inductive SettingsFault where
  /-- A rule reads no columns. -/
  | ruleWithoutColumns
  /-- A rule names an algorithm that is not there. -/
  | unknownAlgorithm (name : String)
  /-- A rule expression reads a column that the rule does not declare. -/
  | undeclaredColumn (name : String)
  /-- A rule expression is none. -/
  | badExpression (source : String) (e : Expression.ParseError)
  /-- A rule has no algorithm and no expression, or both. -/
  | ruleChoice
  /-- A router lists a suffix of a shard twice. -/
  | repeatedPart (router shard suffix : String)
  /-- A router has no parts. -/
  | emptyPartition (router : String)
  /-- A shard is referred to that is not there. -/
  | unknownShard (owner : ShardOwner) (shard : String)
  /-- Two routers have one name. -/
  | repeatedRouter (id : String)
  /-- A table refers to a router that is not there. -/
  | unknownRouter (table router : String)
  /-- A table has none of router, copies and shard, or several. -/
  | tableChoice (table : String)
  /-- Two tables have one name. -/
  | repeatedTable (table : String)
  /-- Two datasources have one name. -/
  | repeatedDatasource (uid : String)
  /-- A shard refers to a datasource that is not there. -/
  | unknownDatasource (shard uid : String)
  /-- A datasource is a member of two shards, or twice of one. -/
  | sharedDatasource (uid : String)
  /-- Two shards have one name. -/
  | repeatedShard (name : String)
  /-- A shard has no member that takes writes. -/
  | noWritable (shard : String)
  /-- A connection is asked for from a shard that is not there. -/
  | noSuchShard (shard : String)
  deriving DecidableEq, Repr

/-- The wording of a fault in settings. -/
def SettingsFault.message : SettingsFault → String
  | .ruleWithoutColumns => "rule declares no columns"
  | .unknownAlgorithm name => "unknown algorithm " ++ Text.quoted name
  | .undeclaredColumn name => "placeholder $\x7b" ++ name ++ "\x7d is not a declared rule column"
  | .badExpression source e => "rule expression " ++ Text.quoted source ++ ": " ++ e.message
  | .ruleChoice => "rule needs exactly one of algorithm or expression"
  | .repeatedPart router shard suffix =>
    "router " ++ Text.quoted router ++ " lists shard " ++ Text.quoted shard ++ " suffix " ++
      Text.quoted suffix ++ " twice"
  | .emptyPartition router => "router " ++ Text.quoted router ++ " has an empty partition"
  | .unknownShard owner shard =>
    owner.text ++ " references unknown shard " ++ Text.quoted shard
  | .repeatedRouter id => "duplicate table router " ++ Text.quoted id
  | .unknownRouter table router =>
    "table " ++ Text.quoted table ++ " references unknown router " ++ Text.quoted router
  | .tableChoice table =>
    "table " ++ Text.quoted table ++ " needs exactly one of router, broadcast or shard"
  | .repeatedTable table => "duplicate table " ++ Text.quoted table
  | .repeatedDatasource uid => "duplicate datasource " ++ Text.quoted uid
  | .unknownDatasource shard uid =>
    "shard " ++ Text.quoted shard ++ " references unknown datasource " ++ Text.quoted uid
  | .sharedDatasource uid =>
    "datasource " ++ Text.quoted uid ++ " belongs to more than one shard"
  | .repeatedShard name => "duplicate shard " ++ Text.quoted name
  | .noWritable shard => "shard " ++ Text.quoted shard ++ " has no writable datasource"
  | .noSuchShard shard => "unknown shard " ++ Text.quoted shard

/-- Why a statement has no target. -/
inductive RoutingFault where
  /-- The table is not declared. -/
  | tableUnknown (table : String)
  /-- A row binds no value to a column that routing needs. -/
  | columnMissing (table column : String)
  /-- A column that decides where a row lives is assigned. -/
  | columnFixed (table column : String)
  /-- A row has no target, or several. -/
  | targetCount (table : String) (count : Nat)
  /-- A key matches no part of the partition. -/
  | noTarget (router : String) (key : Key)
  /-- The values of a row have no key. -/
  | noKey (router : String) (reason : KeyFault)
  /-- A row has more or fewer cells than there are columns. -/
  | cellCount (expected found : Nat)
  deriving DecidableEq, Repr

/-- The wording of a routing fault. -/
def RoutingFault.message : RoutingFault → String
  | .tableUnknown table => "table " ++ Text.quoted table ++ " is not defined"
  | .columnMissing table column =>
    "sharding column " ++ Text.quoted column ++ " of table " ++ Text.quoted table ++ " is missing"
  | .columnFixed table column =>
    "sharding column " ++ Text.quoted column ++ " of table " ++ Text.quoted table ++
      " can not be updated"
  | .targetCount table count =>
    "table " ++ Text.quoted table ++ " routing expected one target, found " ++ toString count
  | .noTarget router key =>
    "rule " ++ Text.quoted router ++ " produced key " ++ Text.quoted key.toText ++
      " matching no partition"
  | .noKey router reason =>
    "rule " ++ Text.quoted router ++ " evaluation error: " ++ reason.message
  | .cellCount expected found =>
    "column count mismatch, expected " ++ toString expected ++ ", found " ++ toString found

/-- What a statement is used for. -/
inductive StatementUse where
  /-- To read rows. -/
  | query
  /-- To write rows. -/
  | update
  deriving DecidableEq, Repr

/-- The name of a use. -/
def StatementUse.name : StatementUse → String
  | .query => "query"
  | .update => "update"

/-- Why something failed. -/
inductive Cause where
  /-- A statement has no target. -/
  | routing (f : RoutingFault)
  /-- A database refused a fragment. -/
  | fragment (shard sql : String) (e : SqlError)
  /-- A statement took longer than it may. -/
  | timeout (milliseconds : Nat)
  /-- No datasource of a shard gave a connection. -/
  | unavailable (shard : String)
  /-- Settings are refused. -/
  | settings (f : SettingsFault)
  /-- A statement is used for what its kind does not do. -/
  | wrongKind (kind : StatementKind) (use : StatementUse)
  deriving DecidableEq, Repr

/-- The wording of a cause. -/
def Cause.message : Cause → String
  | .routing f => "routing error: " ++ f.message
  | .fragment shard sql e =>
    "shard " ++ Text.quoted shard ++ " execute " ++ Text.quoted sql ++ " error: " ++ e.text
  | .timeout ms => "statement cancelled after " ++ toString ms ++ " ms timeout"
  | .unavailable shard => "no available datasource for shard " ++ Text.quoted shard
  | .settings f => "config error: " ++ f.message
  | .wrongKind kind use =>
    "runtime error: WrongStatementKind(" ++ Text.quoted kind.name ++ ", " ++ Text.quoted use.name ++
      ")"

/-- The text of the error underneath a cause, where there is one. -/
def Cause.source? : Cause → Option String
  | .routing f => some f.message
  | .fragment _ _ e => some e.text
  | .wrongKind kind use =>
    some (kind.name ++ " statement can not be executed as " ++ use.name)
  | .timeout _ | .unavailable _ | .settings _ => none

/-- A failure: its cause, and the statement that failed. -/
structure Failure where
  /-- Why it failed. -/
  cause : Cause
  /-- The text of the statement, where it is known. -/
  statement : Option String := none
  deriving DecidableEq, Repr

namespace Failure

/-- A failure of a statement; one that names its statement already keeps that name. -/
def forStatement (f : Failure) (sql : String) : Failure :=
  { f with statement := some (f.statement.getD sql) }

/-- The wording of a failure. -/
def message (f : Failure) : String :=
  match f.statement with
  | some sql => f.cause.message ++ ", sql: " ++ sql
  | none => f.cause.message

/-- Naming a statement a second time changes nothing. -/
@[simp] theorem forStatement_forStatement (f : Failure) (a b : String) :
    (f.forStatement a).forStatement b = f.forStatement a := rfl

end Failure

end ShardRouting
