import ShardRouting.Cluster.Schedule
import ShardRouting.Plan

/-!
# Executing statements

Statements are planned, their fragments run as tasks at the same time, and the outcomes folded into
one answer: counts are added, results are put one behind the other. Main content: `Session`,
`Executor.update` and `Executor.query`.
-/

namespace ShardRouting

/-- The limits under which statements run. -/
structure Session where
  /-- How many milliseconds a statement may take. -/
  timeout : Option Nat := none
  /-- How many more datasources a fragment tries after a failure. -/
  retry : Nat := 0
  deriving Repr

/-- What statements are executed with. -/
structure Executor where
  /-- The tables. -/
  catalog : Catalog
  /-- How many fragments of a statement run at once. -/
  limit : Nat
  /-- The limits under which statements run. -/
  session : Session

namespace Executor

/-- How many fragments run at once where settings do not say. -/
def defaultConcurrency : Nat := 4

/-- The executor of settings. -/
def ofSettings (catalog : Catalog) (s : ExecutorSettings) : Executor :=
  ⟨catalog, max (s.concurrency.getD defaultConcurrency) 1, { timeout := s.timeout }⟩

/-- Fragments with the same text on the same shard, with the values of each, the groups in the order
of their first fragment. -/
def groups (fragments : List Fragment) : List ((String × String) × List (List Value)) :=
  (fragments.map fun f => (f.shard, f.sql)).eraseDups.map fun key =>
    (key, (fragments.filter fun f => (f.shard, f.sql) == key).map Fragment.params)

/-- The work of a group: a batch, where there is more than one list of values. -/
def groupWork (sql : String) (lists : List (List Value)) : Work :=
  match lists with
  | [params] => .update sql params
  | lists => .batch sql lists

/-- The tasks of a plan that writes. Added rows that have the same text on the same shard go
together. -/
def updateTasks (p : Plan) : List Task :=
  if p.kind = .insert ∨ p.kind = .merge then
    (groups p.fragments).map fun (key, lists) => { shard := key.1, work := groupWork key.2 lists }
  else p.fragments.map fun f => { shard := f.shard, work := .update f.sql f.params }

/-- The tasks of a plan that reads. -/
def queryTasks (p : Plan) (maxRows : Nat) : List Task :=
  p.fragments.map fun f => { shard := f.shard, work := .query f.sql f.params maxRows }

/-- The outputs of results in order, or the first cause among them. -/
def collect : List (Except Cause Output) → Except Cause (List Output)
  | [] => .ok []
  | .error cause :: _ => .error cause
  | .ok o :: rest =>
    match collect rest with
    | .error cause => .error cause
    | .ok os => .ok (o :: os)

/-- The deadline of tasks: one task alone may still use the moment of the deadline. -/
def deadline (e : Executor) (taskCount : Nat) : Option Schedule.Deadline :=
  e.session.timeout.map fun time => ⟨time, taskCount ≤ 1⟩

/-- Runs tasks to their ends and gives their outputs, or the first cause among their failures. Past
the deadline the statement has failed whatever some tasks came to. -/
def invoke (e : Executor) (w : World) (kind : StatementKind) (tasks : List Task) :
    Except Cause (List Output) × World :=
  let x := Schedule.run ⟨w, tasks, kind, e.session.retry⟩ e.limit (e.deadline tasks.length)
  if x.isFinished then (collect (x.tasks.filterMap Task.result?), x.world)
  else (.error (.timeout (e.session.timeout.getD 0)), x.world.count (.timedOut kind))

/-- The plan of a statement; a random choice among copies may be needed for it. -/
def plan (e : Executor) (w : World) (s : Statement) : Except Failure Plan × World :=
  let (draw, w) := w.draw
  (Plan.ofStatement e.catalog draw s, w)

/-- A failure of a statement. -/
def failure (s : Statement) (cause : Cause) : Failure :=
  Failure.forStatement { cause } s.displaySql

/-- The number of rows that outputs changed. Of copies only those of the first shard count. The
numbers are natural ones; in a word the sum would start again at zero with `2 ^ 64` rows. -/
def totalCount (broadcast : Bool) (tasks : List Task) (outputs : List Output) : Nat :=
  let counted := (tasks.zip outputs).filter fun (t, _) =>
    !broadcast || tasks.head?.any fun first => first.shard == t.shard
  (counted.map fun (_, o) =>
    match o with
    | .count n => n
    | .rows _ => 0).foldr (· + ·) 0

/-- The results among outputs. -/
def results (outputs : List Output) : List ResultSet :=
  outputs.filterMap fun o =>
    match o with
    | .rows r => some r
    | .count _ => none

/-- Executes a statement that writes and gives the number of rows it changed. -/
def update (e : Executor) (w : World) (s : Statement) : Except Failure Nat × World :=
  if s.kind.isQuery then (.error (failure s (.wrongKind s.kind .update)), w)
  else
    match e.plan w s with
    | (.error f, w) => (.error f, w)
    | (.ok p, w) =>
      let tasks := updateTasks p
      match e.invoke w s.kind tasks with
      | (.error cause, w) => (.error (failure s cause), w)
      | (.ok outputs, w) => (.ok (totalCount p.broadcast tasks outputs), w)

/-- Executes a statement that reads and gives a cursor over its rows, up to a limit where that is
not zero. -/
def query (e : Executor) (w : World) (s : Statement) (maxRows : Nat) :
    Except Failure Cursor × World :=
  if !s.kind.isQuery then (.error (failure s (.wrongKind s.kind .query)), w)
  else
    match e.plan w s with
    | (.error f, w) => (.error f, w)
    | (.ok p, w) =>
      match e.invoke w s.kind (queryTasks p maxRows) with
      | (.error cause, w) => (.error (failure s cause), w)
      | (.ok outputs, w) => (.ok (Cursor.ofResults (results outputs) maxRows), w)

end Executor

end ShardRouting
