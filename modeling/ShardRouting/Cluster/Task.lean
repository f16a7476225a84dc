import ShardRouting.Cluster.World

/-!
# Tasks

A task runs one fragment: it searches for a connection, makes its calls one after another, and gives
the connection back. It waits only where a connection is being opened or a call is being answered;
everything between two waits is one step. Main content: `Work`, `Task`, `Phase` and `Task.step`.
-/

namespace ShardRouting

/-- What a task asks of its shard. -/
inductive Work where
  /-- A write. -/
  | update (sql : String) (params : List Value)
  /-- A write with several lists of values. -/
  | batch (sql : String) (lists : List (List Value))
  /-- Rows, up to a limit. -/
  | query (sql : String) (params : List Value) (maxRows : Nat)

namespace Work

/-- The text of the statement. -/
def sql : Work → String
  | .update sql _ => sql
  | .batch sql _ => sql
  | .query sql _ _ => sql

/-- Whether a connection for reads is enough. -/
def readOnly : Work → Bool
  | .query .. => true
  | _ => false

/-- The calls that the work takes, each with its lists of values. -/
def calls (style : ConnectionStyle) : Work → List (CallKind × List (List Value))
  | .update _ params => [(.execute, [params])]
  | .query _ params _ => [(.query, [params])]
  | .batch _ lists =>
    match style with
    | .native => [(.batch, lists)]
    | .composed => lists.map fun params => (.execute, [params])

end Work

/-- What a task gives. -/
inductive Output where
  /-- The number of rows that were changed, below `2 ^ 64` where it is counted in a word. -/
  | count (n : Nat)
  /-- Rows. -/
  | rows (r : ResultSet)

/-- How far a task is. -/
inductive Phase where
  /-- It has not begun. -/
  | queued
  /-- A connection to a datasource is being opened. -/
  | opening (uid : String) (search : World.Search)
  /-- A call is being answered; more follow it. -/
  | calling (loan : Loan) (kind : CallKind) (params : List (List Value))
      (more : List (CallKind × List (List Value))) (changed : Nat)
  /-- It has ended. -/
  | finished (result : Except Cause Output)

/-- A task. -/
structure Task where
  /-- The shard that it runs on. -/
  shard : String
  /-- What it asks. -/
  work : Work
  /-- How far it is. -/
  phase : Phase := .queued

namespace Task

/-- The connection that a task asks for. -/
def request (t : Task) (retry : Nat) : ConnectionRequest :=
  { shard := t.shard, readOnly := t.work.readOnly, retry }

/-- Whether a task has ended. -/
def isFinished (t : Task) : Bool :=
  match t.phase with
  | .finished _ => true
  | _ => false

/-- The result of a task that has ended. -/
def result? (t : Task) : Option (Except Cause Output) :=
  match t.phase with
  | .finished r => some r
  | _ => none

/-- The milliseconds that a task waits for. -/
def delay? (t : Task) (w : World) : Option Nat :=
  match t.phase with
  | .opening uid _ => some (w.behaviour uid).connectDelay
  | .calling loan .. => some (w.behaviour loan.uid).delay
  | .queued | .finished _ => none

/-- The phase of a task that has got a connection. -/
def begin (w : World) (work : Work) (loan : Loan) : Phase :=
  match work.calls w.style with
  | (kind, params) :: more => .calling loan kind params more 0
  | [] => .finished (.ok (.count 0))

/-- Goes on with the search for a connection. -/
def search (t : Task) (w : World) (retry : Nat) (s : World.Search) : Task × World :=
  match w.seek (t.request retry) s with
  | (.found loan, w) => ({ t with phase := begin w t.work loan }, w)
  | (.mustOpen uid rest, w) => ({ t with phase := .opening uid rest }, w)
  | (.failed cause, w) => ({ t with phase := .finished (.error cause) }, w)

/-- Ends a task whose calls succeeded: its connection is idle again. -/
def succeed (t : Task) (w : World) (kind : StatementKind) (loan : Loan) (o : Output) :
    Task × World :=
  ({ t with phase := .finished (.ok o) }, (w.giveBack loan).count (.executed t.shard kind))

/-- Ends a task one of whose calls failed. After a fatal error the datasource is reported and the
connection thrown away. -/
def fail (t : Task) (w : World) (kind : StatementKind) (loan : Loan) (e : SqlError) :
    Task × World :=
  let fatal := (w.repository.datasource? loan.uid).any fun d => d.isFatal e
  let w := w.count (.failed t.shard kind)
  let w := if fatal then w.reportIfFatal loan.uid e else w.giveBack loan
  ({ t with phase := .finished (.error (.fragment t.shard t.work.sql e)) }, w)

/-- What a call that was answered comes to: the next call, or the end of the task. -/
def answered (t : Task) (w : World) (kind : StatementKind) (loan : Loan)
    (params : List (List Value)) (more : List (CallKind × List (List Value))) (changed : Nat)
    (b : Behaviour) : Task × World :=
  match t.work with
  | .query sql params maxRows => t.succeed w kind loan (.rows (b.results sql params maxRows))
  | _ =>
    let changed := changed + (params.map (b.changes t.work.sql)).foldr (· + ·) 0
    match more with
    | (next, params) :: more => ({ t with phase := .calling loan next params more changed }, w)
    | [] => t.succeed w kind loan (.count changed)

/-- One step: the connection that was being opened is open or refused, or the call that was being
answered is. A task that has not begun begins, one that has ended stays. -/
def step (t : Task) (w : World) (kind : StatementKind) (retry : Nat) : Task × World :=
  match t.phase with
  | .queued => t.search w retry (World.Search.start (t.request retry))
  | .opening uid s =>
    match w.openConnection uid with
    | (.ok number, w) => ({ t with phase := begin w t.work ⟨uid, number⟩ }, w)
    | (.error e, w) => t.search (w.reportIfFatal uid e) retry (s.without uid)
  | .calling loan callKind params more changed =>
    match w.call loan callKind t.work.sql params with
    | (.ok b, w) => t.answered w kind loan params more changed b
    | (.error e, w) => t.fail w kind loan e
  | .finished _ => (t, w)

end Task

end ShardRouting
