import ShardRouting.Balance.Kind
import ShardRouting.Datasource.Dialect

/-!
# Settings

What an operator declares: the datasources, the shards that group them, the routers that spread
tables over shards, the logical tables, and the limits of health checks and execution.
-/

namespace ShardRouting

/-- A database server. -/
structure DatasourceSettings where
  /-- The name by which shards refer to it. -/
  uid : String
  /-- Its network address. -/
  addr : String := ""
  /-- The database on the server. -/
  db : String := ""
  /-- The user to connect as. -/
  user : String := ""
  /-- The password of the user. -/
  password : String := ""
  /-- The statement that shows whether it answers, where one is to be used. -/
  validationQuery : Option String := none
  /-- How many milliseconds a validation may take. -/
  validationTimeout : Nat := 3000
  /-- Which of its errors are fatal. -/
  dialect : Dialect := .generic
  /-- How many idle connections are kept. -/
  poolSize : Nat := 64
  deriving Repr

/-- A datasource as a member of a shard. -/
structure MemberSettings where
  /-- The datasource. -/
  uid : String
  /-- Its weight for reads. -/
  readWeight : Int64 := 1
  /-- Its weight for writes. -/
  writeWeight : Int64 := 1
  deriving DecidableEq, Repr

/-- A shard: datasources that hold the same part of the data. -/
structure ShardSettings where
  /-- The name of the shard. -/
  name : String
  /-- Its members, in order of preference. -/
  members : List MemberSettings := []
  /-- How to spread selections, where the make-up of the shard should not decide it. -/
  balance : Option BalanceKind := none
  /-- How many ring points a unit of weight has. -/
  replicas : Option Nat := none
  deriving Repr

/-- One shard of a partition, with the suffixes of the tables that it holds. -/
structure PartitionSettings where
  /-- The shard. -/
  shard : String
  /-- The suffixes; none means one table under the logical name. -/
  suffixes : List String := []
  deriving Repr

/-- A column that a rule reads. -/
structure RuleColumn where
  /-- The name of the column. -/
  name : String
  /-- Whether routing needs a value for it. -/
  required : Bool := true
  deriving DecidableEq, Repr

/-- How the values of columns choose a part of a partition. -/
structure RuleSettings where
  /-- The columns that are read. -/
  columns : List RuleColumn := []
  /-- The name of an algorithm. -/
  algorithm : Option String := none
  /-- An expression over the columns. -/
  expression : Option String := none
  /-- The arguments of the algorithm. -/
  args : List Int64 := []

/-- A router: a partition and the rule that chooses among its parts. -/
structure RouterSettings where
  /-- The name by which tables refer to it. -/
  id : String
  /-- The shards and suffixes of the tables. -/
  partition : List PartitionSettings := []
  /-- How a part is chosen. -/
  rule : RuleSettings

/-- A logical table: routed, replicated, or kept whole in one shard. -/
structure TableSettings where
  /-- The name of the table. -/
  name : String
  /-- The shard that holds it whole. -/
  shard : Option String := none
  /-- The router that spreads it. -/
  router : Option String := none
  /-- The shards that each hold a copy of it. -/
  broadcast : Option (List String) := none
  deriving Repr

/-- The limits of health checks. -/
structure MonitorSettings where
  /-- The milliseconds between checks. -/
  interval : Nat := 500
  /-- How many milliseconds one validation may take. -/
  validationTimeout : Nat := 3000
  deriving Repr

/-- The limits of execution. -/
structure ExecutorSettings where
  /-- How many milliseconds a statement may take. -/
  timeout : Option Nat := none
  /-- How many fragments of a statement run at once. -/
  concurrency : Option Nat := none
  deriving Repr

/-- Everything that an operator declares about a sharded database. -/
structure Settings where
  /-- The database servers. -/
  datasources : List DatasourceSettings := []
  /-- The shards. -/
  shards : List ShardSettings := []
  /-- The routers. -/
  routers : List RouterSettings := []
  /-- The logical tables. -/
  tables : List TableSettings := []
  /-- The limits of health checks. -/
  monitor : MonitorSettings := {}
  /-- The limits of execution. -/
  executor : ExecutorSettings := {}

end ShardRouting
