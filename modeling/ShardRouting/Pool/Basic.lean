import ShardRouting.Pool.IdleQueue
import ShardRouting.Text.Quoted

/-!
# Connection pools

A pool lends connections to holders by endpoint: the longest idle one, or a new one from the factory
of the endpoint. A connection that comes back is kept for the endpoint it was lent for, unless it was
in the middle of a statement, was discarded, or the queue is full. Main content: `Pool`, `Lease`, and
the steps of the holders, `PoolUse.run`.
-/

namespace ShardRouting

/-- A physical connection. -/
structure Connection where
  /-- Its number in the order of opening. -/
  number : Nat
  /-- The endpoint that it is labelled with. -/
  label : String
  deriving DecidableEq, Repr

/-- How connections to an endpoint are made. -/
structure Factory where
  /-- The label of the connections. -/
  label : String
  /-- Why none can be made, where that is so. -/
  refusal : Option String := none
  deriving Repr

/-- A connection in the hands of a holder. -/
structure Lease where
  /-- The connection. -/
  connection : Connection
  /-- The endpoint it was lent for. -/
  endpoint : String
  /-- Whether it is in the middle of a statement. -/
  busy : Bool := false
  deriving Repr

/-- Why a pool has no connection to lend. -/
inductive PoolFault where
  /-- The endpoint has no factory. -/
  | noFactory (endpoint : String)
  /-- The factory makes none. -/
  | refused (reason : String)
  deriving Repr

/-- The wording of a pool fault. -/
def PoolFault.message : PoolFault → String
  | .noFactory endpoint =>
    "no connection factory registered for endpoint " ++ Text.quoted endpoint
  | .refused reason => "build connection error: " ++ Text.quoted reason

/-- Idle connections and factories by endpoint. -/
structure Pool where
  /-- How many connections of an endpoint are kept. -/
  size : Nat
  /-- The factories, the latest of an endpoint first. -/
  factories : List (String × Factory) := []
  /-- The idle connections of the endpoints that have had a factory. -/
  queues : List (String × IdleQueue Connection) := []

namespace Pool

/-- The idle connections of an endpoint. -/
def queue? (p : Pool) (endpoint : String) : Option (IdleQueue Connection) :=
  p.queues.lookup endpoint

/-- How many connections of an endpoint are idle. -/
def idleCount (p : Pool) (endpoint : String) : Nat :=
  ((p.queue? endpoint).map fun q => q.idle.length).getD 0

/-- The pool with the idle connections of an endpoint changed. -/
def mapQueue (p : Pool) (endpoint : String)
    (f : IdleQueue Connection → IdleQueue Connection) : Pool :=
  { p with queues := p.queues.map fun (e, q) => if e == endpoint then (e, f q) else (e, q) }

/-- The pool with a factory for an endpoint. Connections that are idle stay. -/
def setFactory (p : Pool) (endpoint : String) (f : Factory) : Pool :=
  { p with
    factories := (endpoint, f) :: p.factories
    queues :=
      if (p.queue? endpoint).isSome then p.queues
      else p.queues ++ [(endpoint, IdleQueue.empty p.size)] }

/-- The connection that is idle longest at an endpoint, and the pool without it. -/
def takeIdle? (p : Pool) (endpoint : String) : Option (Connection × Pool) :=
  ((p.queue? endpoint).bind IdleQueue.take?).map fun (c, q) =>
    (c, p.mapQueue endpoint fun _ => q)

/-- The factory of an endpoint. -/
def factory (p : Pool) (endpoint : String) : Except PoolFault Factory :=
  match p.factories.lookup endpoint with
  | some f => .ok f
  | none => .error (.noFactory endpoint)

/-- The pool with a lease that has ended: a busy connection is gone, another goes back to the
endpoint it was lent for. -/
def giveBack (p : Pool) (l : Lease) : Pool :=
  if l.busy then p else p.mapQueue l.endpoint fun q => q.put l.connection

end Pool

/-- A pool with the leases of its holders. -/
structure PoolUse where
  /-- The pool. -/
  pool : Pool
  /-- The leases by holder. -/
  leases : List (String × Lease) := []
  /-- How many connections were opened. -/
  built : Nat := 0

/-- What a holder or the owner of a pool does. -/
inductive PoolStep where
  /-- Sets the factory of an endpoint. -/
  | setFactory (endpoint : String) (f : Factory)
  /-- Borrows a connection; what the holder held before comes back after that. -/
  | get (endpoint holder : String)
  /-- Opens a connection and throws it away. -/
  | build (endpoint : String)
  /-- Gives a connection back. -/
  | drop (holder : String)
  /-- Throws a connection away. -/
  | discard (holder : String)
  /-- Marks a connection as in the middle of a statement, or not. -/
  | setBusy (holder : String) (busy : Bool)
  /-- Gives a connection another label. -/
  | relabel (holder label : String)
  /-- Throws away the idle connections of an endpoint. -/
  | clear (endpoint : String)

/-- What a step answers. -/
inductive PoolAnswer where
  /-- Nothing to say. -/
  | done
  /-- Whether the holder held a connection. -/
  | held (b : Bool)
  /-- A connection was borrowed or opened. -/
  | got (c : Connection)
  /-- There was none. -/
  | failed (f : PoolFault)

namespace PoolUse

/-- The lease of a holder. -/
def lease? (u : PoolUse) (holder : String) : Option Lease :=
  u.leases.lookup holder

/-- The leases without that of a holder. -/
def withoutLease (u : PoolUse) (holder : String) : PoolUse :=
  { u with leases := u.leases.filter fun entry => entry.1 ≠ holder }

/-- Opens a connection with the factory of an endpoint. -/
def openConnection (u : PoolUse) (endpoint : String) : Except PoolFault (Connection × PoolUse) := do
  let f ← u.pool.factory endpoint
  match f.refusal with
  | some reason => .error (.refused reason)
  | none => .ok (⟨u.built + 1, f.label⟩, { u with built := u.built + 1 })

/-- Takes a connection of an endpoint: the longest idle one, or else a new one. -/
def acquire (u : PoolUse) (endpoint : String) : Except PoolFault (Connection × PoolUse) :=
  match u.pool.takeIdle? endpoint with
  | some (c, pool) => .ok (c, { u with pool })
  | none => u.openConnection endpoint

/-- Ends the lease of a holder, who gives the connection back. -/
def release (u : PoolUse) (holder : String) : PoolUse :=
  match u.lease? holder with
  | some l => { u.withoutLease holder with pool := u.pool.giveBack l }
  | none => u

/-- Changes the lease of a holder; says whether there is one. -/
def mapLease (u : PoolUse) (holder : String) (f : Lease → Lease) : PoolAnswer × PoolUse :=
  (.held (u.lease? holder).isSome,
    { u with leases := u.leases.map fun (h, l) => if h == holder then (h, f l) else (h, l) })

/-- One step, its answer, and what is left behind it. -/
def run (u : PoolUse) : PoolStep → PoolAnswer × PoolUse
  | .setFactory endpoint f => (.done, { u with pool := u.pool.setFactory endpoint f })
  | .get endpoint holder =>
    match u.acquire endpoint with
    | .error fault => (.failed fault, u)
    | .ok (c, u) =>
      let u := u.release holder
      (.got c, { u with leases := (holder, ⟨c, endpoint, false⟩) :: u.leases })
  | .build endpoint =>
    match u.openConnection endpoint with
    | .error fault => (.failed fault, u)
    | .ok (c, u) => (.got c, u)
  | .drop holder => (.held (u.lease? holder).isSome, u.release holder)
  | .discard holder => (.held (u.lease? holder).isSome, u.withoutLease holder)
  | .setBusy holder busy => u.mapLease holder fun l => { l with busy }
  | .relabel holder label =>
    u.mapLease holder fun l => { l with connection := { l.connection with label } }
  | .clear endpoint => (.done, { u with pool := u.pool.mapQueue endpoint IdleQueue.clear })

end PoolUse

end ShardRouting
