import ShardRouting.Balance.Endpoint

/-!
# Random balancing

Each selection is one draw below the sum of the weights; endpoints own consecutive ranges of draws,
each as long as its weight. The sum is carried along in a machine word and never computed anew.
-/

namespace ShardRouting

/-- Endpoints with the sum of their weights. -/
structure RandomBalance where
  /-- The endpoints, in the order in which they joined. -/
  items : List Endpoint := []
  /-- The sum of their weights, modulo the size of a word. -/
  sum : Int64 := 0
  deriving DecidableEq, Repr

namespace RandomBalance

/-- The first endpoint at which a remainder, less the weights so far, is no longer positive. -/
def walk (remainder : Int64) : List Endpoint → Option Endpoint
  | [] => none
  | e :: es => if remainder - e.weight ≤ 0 then some e else walk (remainder - e.weight) es

/-- The endpoint of a draw below the sum; past all ranges it is the last one. -/
def pick (b : RandomBalance) (draw : Int64) : Option Endpoint :=
  if b.items.isEmpty || b.sum ≤ 0 then none
  else (walk (draw + 1) b.items).or b.items.getLast?

/-- The endpoint of any draw; draws are taken modulo the sum. -/
def next (b : RandomBalance) (draw : Nat) : Option Endpoint :=
  b.pick (Int64.ofNat (draw % b.sum.toNatClampNeg))

/-- The balancer with one more endpoint, where that may join. -/
def add (b : RandomBalance) (e : Endpoint) : RandomBalance :=
  if e.mayJoin b.items then ⟨b.items ++ [e], b.sum + e.weight⟩ else b

/-- The balancer without an endpoint. -/
def remove (b : RandomBalance) (e : Endpoint) : RandomBalance :=
  match b.items.find? fun x => x.isSame e with
  | some removed => ⟨b.items.eraseP fun x => x.isSame e, b.sum - removed.weight⟩
  | none => b

/-- The endpoints whose ranges begin below a number of draws. -/
def within (draws : Int) : List Endpoint → List Endpoint
  | [] => []
  | e :: es => if 0 < draws then e :: within (draws - e.weight.toInt) es else []

/-- The endpoints that some draw gives. -/
def drawable (b : RandomBalance) : List Endpoint :=
  within b.sum.toInt b.items

end RandomBalance

end ShardRouting
