import ShardRouting.Cluster.Executor
import ShardRouting.Cluster.Monitor

/-!
# Clusters

A whole sharded database in operation: executor, repository, databases, monitor, and the connections
that callers hold. Main content: `Cluster.build` and what callers can do with a cluster.
-/

namespace ShardRouting

/-- A sharded database in operation. -/
structure Cluster where
  /-- What is declared about it. -/
  settings : Settings
  /-- What statements are executed with. -/
  executor : Executor
  /-- The repository with the databases behind it. -/
  world : World
  /-- The health checks. -/
  monitor : Monitor := {}
  /-- The connections that callers hold, by the name of the holder. -/
  held : List (String × Loan) := []

namespace Cluster

/-- The cluster of settings, or the first fault in them: the repository comes before the tables. -/
def build (s : Settings) (style : ConnectionStyle) : Except SettingsFault Cluster := do
  let repository ← Repository.build s
  let catalog ← Catalog.build Registry.builtin s
  .ok { settings := s, executor := Executor.ofSettings catalog s.executor
        world := { repository, style } }

/-- The repository of a cluster. -/
def repository (c : Cluster) : Repository :=
  c.world.repository

/-- The cluster with another repository. -/
def withRepository (c : Cluster) (repository : Repository) : Cluster :=
  { c with world := { c.world with repository } }

/-- The cluster with an empty log of calls. -/
def clearCalls (c : Cluster) : Cluster :=
  { c with world := { c.world with calls := [] } }

/-- The cluster with other limits for statements. -/
def withSession (c : Cluster) (session : Session) : Cluster :=
  { c with executor := { c.executor with session } }

/-- Executes a statement that writes. -/
def update (c : Cluster) (s : Statement) : Except Failure Nat × Cluster :=
  let (r, world) := c.executor.update c.world s
  (r, { c with world })

/-- Executes a statement that reads. -/
def query (c : Cluster) (s : Statement) (maxRows : Nat) : Except Failure Cursor × Cluster :=
  let (r, world) := c.executor.query c.world s maxRows
  (r, { c with world })

/-- The fragments that a statement would run as. -/
def explain (c : Cluster) (s : Statement) : Except Failure Plan × Cluster :=
  let (r, world) := c.executor.plan c.world s
  (r, { c with world })

/-- Ends the hold of a caller, who gives the connection back or throws it away; says whether there
was one. -/
def endHold (c : Cluster) (holder : String) (keep : Bool) : Bool × Cluster :=
  match c.held.lookup holder with
  | none => (false, c)
  | some loan =>
    (true, { c with
      held := c.held.filter fun entry => entry.1 ≠ holder
      world := if keep then c.world.giveBack loan else c.world })

/-- Takes a connection for a caller and says from which datasource it is. Without a holder it is
given back at once; what the holder held before comes back after the new one was taken. -/
def acquire (c : Cluster) (q : ConnectionRequest) (holder : Option String) :
    Except Failure String × Cluster :=
  match c.world.acquire q with
  | (.error cause, world) => (.error { cause }, { c with world })
  | (.ok loan, world) =>
    match holder with
    | none => (.ok loan.uid, { c with world := world.giveBack loan })
    | some holder =>
      let (_, c) := { c with world }.endHold holder true
      (.ok loan.uid, { c with held := (holder, loan) :: c.held })

/-- The datasource that a request would be served by first. -/
def select (c : Cluster) (q : ConnectionRequest) : Except Failure (Option String) × Cluster :=
  match c.world.choose q true [] with
  | .ok (uid, world) => (.ok uid, { c with world })
  | .error f => (.error { cause := .settings f }, c)

/-- The datasource that a request would be served by when some are excluded. -/
def selectExcept (c : Cluster) (q : ConnectionRequest) (excluded : List String) :
    Except Failure (Option String) :=
  match c.repository.selectExcept q excluded with
  | .ok uid => .ok uid
  | .error f => .error { cause := .settings f }

/-- Reports a failure of a datasource. -/
def report (c : Cluster) (uid : String) : Cluster :=
  c.withRepository (c.repository.report uid)

/-- Takes a datasource out of use. -/
def demote (c : Cluster) (uid : String) : Bool × Cluster :=
  let (changed, r) := c.repository.demote uid
  (changed, c.withRepository r)

/-- Takes a datasource back into use. -/
def wake (c : Cluster) (uid : String) : Bool × Cluster :=
  let (changed, r) := c.repository.wake uid
  (changed, c.withRepository r)

/-- Makes one health check. -/
def check (c : Cluster) : List (String × CheckStatus) × Cluster :=
  let p := c.monitor.check c.settings.monitor.validationTimeout c.world
  (p.results, { c with world := p.world, monitor := ⟨p.suspects⟩ })

/-- Makes health checks at regular times for a number of milliseconds; the monitor behind them is a
new one. -/
def watch (c : Cluster) (ms : Nat) : Cluster :=
  { c with world := c.monitor.watch c.settings.monitor ms c.world, monitor := {} }

/-- The databases that connections were opened to, with their numbers, by name. -/
def builtCounts (c : Cluster) : List (String × Nat) :=
  (c.world.backends.map fun (uid, b) => (uid, b.built)).filter fun entry => 0 < entry.2

/-- The datasources with reported failures, with their numbers. -/
def failureCounts (c : Cluster) : List (String × Nat) :=
  (c.repository.datasources.map fun d => (d.uid, d.failures)).filter fun entry => 0 < entry.2

/-- A kind of thing that is counted, with the values of its labels. -/
def metricKeys : Metric → List (String × List String)
  | .executed shard kind =>
    [("shard_fragment_duration", [shard, kind.name]),
      ("shard_fragment_executed_total", [shard, kind.name])]
  | .failed shard kind => [("shard_fragment_failed_total", [shard, kind.name])]
  | .timedOut kind => [("shard_statement_timeout_total", [kind.name])]

/-- What was counted and how often, in ascending order. -/
def metricCounts (c : Cluster) : List ((String × List String) × Nat) :=
  let keys := c.world.metrics.flatMap metricKeys
  let sorted := keys.eraseDups.mergeSort fun a b =>
    decide (a.1 < b.1) || decide (a.1 = b.1) && !b.2.lex a.2
  sorted.map fun key => (key, keys.count key)

end Cluster

end ShardRouting
