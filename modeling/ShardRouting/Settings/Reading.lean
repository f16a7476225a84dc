import ShardRouting.Document
import ShardRouting.Settings

/-!
# Reading settings

The settings that a document declares. Fields that are not known are passed over; a field of the
wrong shape, or one that must be there and is not, makes the whole document no settings. Main
content: `Settings.ofDocument?` and the readers of its parts.
-/

namespace ShardRouting

/-- The settings of a datasource. -/
def DatasourceSettings.ofDocument? (d : Document) : Option DatasourceSettings := do
  let r ← Record.of? ["uid", "addr", "db", "user", "password", "validation_query",
    "validation_timeout", "exception_sorter", "pool_size"] d
  let uid ← r.required "uid" Document.text?
  let addr ← r.defaulted "addr" Document.text? ""
  let db ← r.defaulted "db" Document.text? ""
  let user ← r.defaulted "user" Document.text? ""
  let password ← r.defaulted "password" Document.text? ""
  let validationQuery ← r.optional "validation_query" Document.text?
  let validationTimeout ← r.defaulted "validation_timeout" Document.natural? 3000
  let dialect ← r.defaulted "exception_sorter" (fun v => v.word?.bind Dialect.ofName?) .generic
  let poolSize ← r.defaulted "pool_size" Document.natural? 64
  some { uid, addr, db, user, password, validationQuery, validationTimeout, dialect, poolSize }

/-- The settings of a member of a shard. -/
def MemberSettings.ofDocument? (d : Document) : Option MemberSettings := do
  let r ← Record.of? ["uid", "r_weight", "w_weight"] d
  let uid ← r.required "uid" Document.text?
  let readWeight ← r.defaulted "r_weight" Document.int64? 1
  let writeWeight ← r.defaulted "w_weight" Document.int64? 1
  some { uid, readWeight, writeWeight }

/-- The settings of a shard. -/
def ShardSettings.ofDocument? (d : Document) : Option ShardSettings := do
  let r ← Record.of? ["name", "member", "balance", "replicas"] d
  let name ← r.required "name" Document.text?
  let members ← r.defaulted "member" (Document.list? MemberSettings.ofDocument?) []
  let balance ← r.optional "balance" fun v => v.word?.bind BalanceKind.ofName?
  let replicas ← r.optional "replicas" Document.natural?
  some { name, members, balance, replicas }

/-- The settings of a part of a partition. -/
def PartitionSettings.ofDocument? (d : Document) : Option PartitionSettings := do
  let r ← Record.of? ["shard", "suffix"] d
  let shard ← r.required "shard" Document.text?
  let suffixes ← r.defaulted "suffix" (Document.list? Document.text?) []
  some { shard, suffixes }

/-- The settings of a rule column. -/
def RuleColumn.ofDocument? (d : Document) : Option RuleColumn := do
  let r ← Record.of? ["name", "required"] d
  let name ← r.required "name" Document.text?
  let required ← r.defaulted "required" Document.truth? true
  some { name, required }

/-- The settings of a rule. -/
def RuleSettings.ofDocument? (d : Document) : Option RuleSettings := do
  let r ← Record.of? ["columns", "algorithm", "expression", "args"] d
  let columns ← r.defaulted "columns" (Document.list? RuleColumn.ofDocument?) []
  let algorithm ← r.optional "algorithm" Document.text?
  let expression ← r.optional "expression" Document.text?
  let args ← r.defaulted "args" (Document.list? Document.int64?) []
  some { columns, algorithm, expression, args }

/-- The settings of a router. -/
def RouterSettings.ofDocument? (d : Document) : Option RouterSettings := do
  let r ← Record.of? ["id", "partition", "rule"] d
  let id ← r.required "id" Document.text?
  let partition ← r.defaulted "partition" (Document.list? PartitionSettings.ofDocument?) []
  let rule ← r.required "rule" RuleSettings.ofDocument?
  some { id, partition, rule }

/-- The settings of a table. -/
def TableSettings.ofDocument? (d : Document) : Option TableSettings := do
  let r ← Record.of? ["name", "shard", "router", "broadcast"] d
  let name ← r.required "name" Document.text?
  let shard ← r.optional "shard" Document.text?
  let router ← r.optional "router" Document.text?
  let broadcast ← r.optional "broadcast" (Document.list? Document.text?)
  some { name, shard, router, broadcast }

/-- The limits of health checks. -/
def MonitorSettings.ofDocument? (d : Document) : Option MonitorSettings := do
  let r ← Record.of? ["interval_ms", "validation_timeout_ms"] d
  let interval ← r.defaulted "interval_ms" Document.natural? 500
  let validationTimeout ← r.defaulted "validation_timeout_ms" Document.natural? 3000
  some { interval, validationTimeout }

/-- The limits of execution. -/
def ExecutorSettings.ofDocument? (d : Document) : Option ExecutorSettings := do
  let r ← Record.of? ["query_timeout_ms", "max_concurrency"] d
  let timeout ← r.optional "query_timeout_ms" Document.natural?
  let concurrency ← r.optional "max_concurrency" Document.natural?
  some { timeout, concurrency }

/-- The settings of a sharded database. -/
def Settings.ofDocument? (d : Document) : Option Settings := do
  let r ← Record.of? ["datasource", "shard", "table_router", "table", "monitor", "executor"] d
  let datasources ← r.defaulted "datasource" (Document.list? DatasourceSettings.ofDocument?) []
  let shards ← r.defaulted "shard" (Document.list? ShardSettings.ofDocument?) []
  let routers ← r.defaulted "table_router" (Document.list? RouterSettings.ofDocument?) []
  let tables ← r.defaulted "table" (Document.list? TableSettings.ofDocument?) []
  let monitor ← r.defaulted "monitor" MonitorSettings.ofDocument? {}
  let executor ← r.defaulted "executor" ExecutorSettings.ofDocument? {}
  some { datasources, shards, routers, tables, monitor, executor }

end ShardRouting
