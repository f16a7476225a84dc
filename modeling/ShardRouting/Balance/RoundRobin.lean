import ShardRouting.Balance.Endpoint

/-!
# Weighted round robin

Selections follow a schedule, one full cycle of which is laid out whenever the membership changes. A
cycle goes through falling thresholds, from the greatest weight down in steps of the greatest common
divisor, and at each threshold takes the endpoints whose weight reaches it, in order. So heavy
endpoints come more often but are interleaved with light ones. How long a cycle is to be is counted
in a machine word beforehand, and no more of it is laid out. Main content: `scheduleOf`, `next`.
-/

namespace ShardRouting

/-- Endpoints with the schedule of a cycle and a position in it. -/
structure RoundRobin where
  /-- The endpoints, in the order in which they joined. -/
  items : List Endpoint := []
  /-- The positions of endpoints in the order of one cycle. -/
  schedule : Array Nat := #[]
  /-- How many selections were made. -/
  cursor : Nat := 0
  deriving DecidableEq, Repr

namespace RoundRobin

/-- The greatest common divisor of weights. -/
def commonStep (weights : List Nat) : Nat :=
  weights.foldl Nat.gcd 0

/-- The positions of the weights that reach a threshold. -/
def reaching (weights : List Nat) (threshold : Nat) : List Nat :=
  (weights.zipIdx.filter fun (w, _) => threshold ≤ w).map Prod.snd

/-- The length of a cycle: the weights in steps are added up, modulo the size of a word. -/
def cycleLength (weights : List Nat) : Int64 :=
  weights.foldl (fun length w => length + Int64.ofNat (w / commonStep weights)) 0

/-- Positions for a number of thresholds that fall by one step each, down to that step, as many of
them as are wanted. -/
def layOut (weights : List Nat) (step : Nat) : Nat → Nat → List Nat
  | 0, _ => []
  | k + 1, wanted =>
    if wanted = 0 then []
    else
      let taken := (reaching weights ((k + 1) * step)).take wanted
      taken ++ layOut weights step k (wanted - taken.length)

/-- The schedule over weights: thresholds from the greatest weight down, until the schedule is as
long as a cycle. -/
def scheduleOf (weights : List Nat) : List Nat :=
  let step := commonStep weights
  layOut weights step (weights.foldl max 0 / step) (cycleLength weights).toNatClampNeg

/-- The balancer over endpoints, with a new schedule and the position kept. -/
def rebuild (cursor : Nat) (items : List Endpoint) : RoundRobin :=
  ⟨items, (scheduleOf (items.map fun e => e.weight.toNatClampNeg)).toArray, cursor⟩

/-- The endpoint at the position in the schedule, and the balancer one position further. -/
def next (b : RoundRobin) : Option Endpoint × RoundRobin :=
  if b.schedule.isEmpty then (none, b)
  else
    ((b.schedule[b.cursor % b.schedule.size]?).bind fun i => b.items[i]?,
      { b with cursor := b.cursor + 1 })

/-- The balancer with one more endpoint, where that may join. -/
def add (b : RoundRobin) (e : Endpoint) : RoundRobin :=
  if e.mayJoin b.items then rebuild b.cursor (b.items ++ [e]) else b

/-- The balancer without an endpoint. -/
def remove (b : RoundRobin) (e : Endpoint) : RoundRobin :=
  if b.items.any fun x => x.isSame e then
    rebuild b.cursor (b.items.eraseP fun x => x.isSame e)
  else b

/-- The endpoints that come in a cycle. -/
def drawable (b : RoundRobin) : List Endpoint :=
  b.items.zipIdx.filterMap fun (e, i) => if b.schedule.contains i then some e else none

end RoundRobin

end ShardRouting
