import ShardRouting.Cluster.Backend
import ShardRouting.Datasource.Repository

/-!
# Worlds

A repository together with the databases behind it: opening connections, making calls and counting
what happened. Main content: `World`, `World.openConnection`, `World.call`, `World.seek` and
`World.acquire`.
-/

namespace ShardRouting

/-- Something that is counted. -/
inductive Metric where
  /-- A fragment ran to its end. -/
  | executed (shard : String) (kind : StatementKind)
  /-- A fragment failed. -/
  | failed (shard : String) (kind : StatementKind)
  /-- A statement took longer than it may. -/
  | timedOut (kind : StatementKind)
  deriving DecidableEq, Repr

/-- A repository with the databases behind it. -/
structure World where
  /-- The repository. -/
  repository : Repository
  /-- The databases by datasource; one that is not listed was never told how to answer. -/
  backends : List (String × Backend) := []
  /-- How connections run batches and validations. -/
  style : ConnectionStyle := .native
  /-- The calls, the earliest first. -/
  calls : List Call := []
  /-- What was counted, the earliest first. -/
  metrics : List Metric := []
  /-- The outcomes of the coming random choices; zero once there are no more. -/
  draws : List Nat := []

/-- A connection that was taken from a datasource. -/
structure Loan where
  /-- The datasource. -/
  uid : String
  /-- The number of the connection. -/
  number : Nat
  deriving DecidableEq, Repr

namespace World

/-- The database of a datasource. -/
def backend (w : World) (uid : String) : Backend :=
  (w.backends.lookup uid).getD {}

/-- How the database of a datasource answers. -/
def behaviour (w : World) (uid : String) : Behaviour :=
  (w.backend uid).behaviour

/-- The world with the database of a datasource replaced. -/
def setBackend (w : World) (uid : String) (b : Backend) : World :=
  { w with backends := (uid, b) :: w.backends.filter fun entry => entry.1 ≠ uid }

/-- The world with another way of a database to answer. -/
def setBehaviour (w : World) (uid : String) (b : Behaviour) : World :=
  w.setBackend uid { w.backend uid with behaviour := b }

/-- The outcome of a random choice, and the world behind it. -/
def draw (w : World) : Nat × World :=
  (w.draws.headD 0, { w with draws := w.draws.tail })

/-- The world with a call logged. -/
def logCall (w : World) (c : Call) : World :=
  { w with calls := w.calls ++ [c] }

/-- The world with something counted. -/
def count (w : World) (m : Metric) : World :=
  { w with metrics := w.metrics ++ [m] }

/-- Opens a connection to a datasource. -/
def openConnection (w : World) (uid : String) : Except SqlError Nat × World :=
  match (w.behaviour uid).connectError with
  | some e => (.error e, w)
  | none =>
    let b := w.backend uid
    (.ok (b.built + 1), w.setBackend uid { b with built := b.built + 1 })

/-- Makes a call for a statement on a borrowed connection and logs it. -/
def call (w : World) (loan : Loan) (kind : CallKind) (sql : String) (params : List (List Value)) :
    Except SqlError Behaviour × World :=
  let b := w.behaviour loan.uid
  let log (succeeded : Bool) : World :=
    w.logCall ⟨loan.uid, loan.number, kind, some sql, params, succeeded⟩
  match b.failure with
  | some e => (.error e, log false)
  | none => (.ok b, log true)

/-- Gives a borrowed connection back. -/
def giveBack (w : World) (loan : Loan) : World :=
  { w with repository := w.repository.giveBack loan.uid loan.number }

/-- Reports a failure of a datasource where its error is fatal. -/
def reportIfFatal (w : World) (uid : String) (e : SqlError) : World :=
  { w with repository := w.repository.reportIfFatal uid e }

/-- How far the search for a connection is. -/
structure Search where
  /-- How many attempts are left. -/
  left : Nat
  /-- Whether the first attempt is still to come. -/
  isFirst : Bool
  /-- The datasources that gave no connection. -/
  excluded : List String
  deriving Repr

/-- The search for a connection before its first attempt. -/
def Search.start (q : ConnectionRequest) : Search :=
  ⟨q.retry + 1, true, []⟩

/-- The search behind an attempt that got no connection from a datasource. -/
def Search.without (s : Search) (uid : String) : Search :=
  { s with excluded := s.excluded ++ [uid] }

/-- What a search comes to without opening a connection. -/
inductive Sought where
  /-- An idle connection. -/
  | found (loan : Loan)
  /-- A connection to a datasource must be opened; the search goes on if that fails. -/
  | mustOpen (uid : String) (rest : Search)
  /-- There is no connection. -/
  | failed (cause : Cause)

/-- The datasource of the next attempt, and the world behind the choice. -/
def choose (w : World) (q : ConnectionRequest) (isFirst : Bool) (excluded : List String) :
    Except SettingsFault (Option String × World) :=
  if isFirst then
    let (draw, w) := w.draw
    match w.repository.select q draw with
    | .error f => .error f
    | .ok (uid, repository) => .ok (uid, { w with repository })
  else
    match w.repository.selectExcept q excluded with
    | .error f => .error f
    | .ok uid => .ok (uid, w)

/-- Searches until a connection is found, one must be opened, or no attempt is left. An attempt that
has no datasource to choose is spent all the same. -/
def seekFrom (w : World) (q : ConnectionRequest) (isFirst : Bool) (excluded : List String) :
    Nat → Sought × World
  | 0 => (.failed (.unavailable q.shard), w)
  | left + 1 =>
    match w.choose q isFirst excluded with
    | .error f => (.failed (.settings f), w)
    | .ok (none, w) => w.seekFrom q false excluded left
    | .ok (some uid, w) =>
      match w.repository.takeIdle? uid with
      | some (number, repository) => (.found ⟨uid, number⟩, { w with repository })
      | none => (.mustOpen uid ⟨left, false, excluded⟩, w)

/-- Goes on with a search. -/
def seek (w : World) (q : ConnectionRequest) (s : Search) : Sought × World :=
  w.seekFrom q s.isFirst s.excluded s.left

/-- Searches for a connection and opens one where that is needed. Each failure to open is reported
if it is fatal, and its datasource excluded. -/
def acquireFrom (w : World) (q : ConnectionRequest) (s : Search) :
    Nat → Except Cause Loan × World
  | 0 => (.error (.unavailable q.shard), w)
  | fuel + 1 =>
    match w.seek q s with
    | (.found loan, w) => (.ok loan, w)
    | (.failed cause, w) => (.error cause, w)
    | (.mustOpen uid rest, w) =>
      match w.openConnection uid with
      | (.ok number, w) => (.ok ⟨uid, number⟩, w)
      | (.error e, w) => (w.reportIfFatal uid e).acquireFrom q (rest.without uid) fuel

/-- A connection for a request, or why there is none. -/
def acquire (w : World) (q : ConnectionRequest) : Except Cause Loan × World :=
  w.acquireFrom q (Search.start q) (q.retry + 2)

end World

end ShardRouting
