import ShardRouting.Balance.HashRing
import ShardRouting.Balance.Kind
import ShardRouting.Balance.Random
import ShardRouting.Balance.RoundRobin

/-!
# Balancers

A balancer of any kind, and families of balancers that were cloned from one and go through their
cycles together. Main content: `Balancer`, `Balancer.build`, `Balancer.next` and `Family`.
-/

namespace ShardRouting

/-- A balancer. -/
inductive Balancer where
  /-- Random draws. -/
  | random (b : RandomBalance)
  /-- A fixed cycle. -/
  | roundRobin (b : RoundRobin)
  /-- A ring of checksums. -/
  | hashRing (b : HashRing)
  deriving DecidableEq, Repr

namespace Balancer

/-- The kind of a balancer. -/
def kind : Balancer → BalanceKind
  | .random _ => .random
  | .roundRobin _ => .roundRobin
  | .hashRing _ => .hashRing

/-- The balancer of a kind without endpoints. -/
def empty (replicas : Nat) : BalanceKind → Balancer
  | .random => .random {}
  | .roundRobin => .roundRobin {}
  | .hashRing => .hashRing (HashRing.empty replicas)

/-- The endpoints of a balancer, in the order in which they joined. -/
def items : Balancer → List Endpoint
  | .random b => b.items
  | .roundRobin b => b.items
  | .hashRing b => b.items

/-- The balancer with one more endpoint. Endpoints without positive weight, and those that are there
already, do not join. -/
def add (b : Balancer) (e : Endpoint) : Balancer :=
  match b with
  | .random b => .random (b.add e)
  | .roundRobin b => .roundRobin (b.add e)
  | .hashRing b => .hashRing (b.add e)

/-- The balancer without an endpoint. -/
def remove (b : Balancer) (e : Endpoint) : Balancer :=
  match b with
  | .random b => .random (b.remove e)
  | .roundRobin b => .roundRobin (b.remove e)
  | .hashRing b => .hashRing (b.remove e)

/-- The balancer without any endpoint; a cycle starts from its beginning. -/
def removeAll : Balancer → Balancer
  | .random _ => .random {}
  | .roundRobin _ => .roundRobin {}
  | .hashRing b => .hashRing { b with items := [], points := [] }

/-- Whether an endpoint is there. -/
def contains (b : Balancer) (e : Endpoint) : Bool :=
  b.items.any fun x => x.isSame e

/-- The balancer of a kind over endpoints. -/
def build (kind : BalanceKind) (replicas : Nat) (endpoints : List Endpoint) : Balancer :=
  endpoints.foldl add (empty replicas kind)

/-- The endpoint of the next selection, and the balancer behind it. A draw decides where chance
does. -/
def next (b : Balancer) (draw : Nat) : Option Endpoint × Balancer :=
  match b with
  | .random r => (r.next draw, b)
  | .roundRobin r =>
    let (e, r) := r.next
    (e, .roundRobin r)
  | .hashRing r => (r.next draw, b)

/-- The endpoint of a key, where the balancer is one that goes by keys. -/
def nextWithKey : Balancer → Option (List UInt8 → Option Endpoint)
  | .hashRing r => some r.nextWithKey
  | _ => none

/-- The endpoints that selections can give. -/
def drawable : Balancer → List Endpoint
  | .random b => b.drawable
  | .roundRobin b => b.drawable
  | .hashRing b => b.drawable

/-- How far a balancer is in its cycle. -/
def cursor? : Balancer → Option Nat
  | .roundRobin b => some b.cursor
  | _ => none

/-- A balancer at a position of its cycle. -/
def withCursor (b : Balancer) (cursor : Nat) : Balancer :=
  match b with
  | .roundRobin b => .roundRobin { b with cursor }
  | b => b

/-- Selections in a row: their endpoints, and the balancer behind them. -/
def nextMany (b : Balancer) (draw : Nat) : Nat → List (Option Endpoint) × Balancer
  | 0 => ([], b)
  | n + 1 =>
    let (e, b) := b.next draw
    let (es, b) := b.nextMany draw n
    (e :: es, b)

end Balancer

/-- Balancers that were cloned from one: each has endpoints of its own, but they share the position
in their cycles. -/
structure Family where
  /-- The balancers, in the order in which they were cloned. -/
  members : List Balancer

namespace Family

/-- The family with a member replaced; the others take over its position. -/
def set (f : Family) (i : Nat) (b : Balancer) : Family :=
  let members := f.members.set i b
  match b.cursor? with
  | some cursor => ⟨members.map fun m => m.withCursor cursor⟩
  | none => ⟨members⟩

/-- The family with one more clone of a member. -/
def clone (f : Family) (i : Nat) : Family :=
  match f.members[i]? with
  | some b => ⟨f.members ++ [b]⟩
  | none => f

end Family

end ShardRouting
