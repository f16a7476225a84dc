/-!
# Endpoints

A datasource as balancers see it: a name within a shard, with a weight. Two endpoints are the same
if name and shard agree, whatever the weight. Weights are machine words, and what balancers count up
from them wraps around.
-/

namespace ShardRouting

/-- A weighted datasource. -/
structure Endpoint where
  /-- The name of the datasource. -/
  name : String
  /-- The shard that it belongs to. -/
  shard : String
  /-- Its share of the selections. -/
  weight : Int64
  /-- The database on the server. -/
  db : String := ""
  /-- The user to connect as. -/
  user : String := ""
  /-- The password of the user. -/
  password : String := ""
  /-- Its network address. -/
  addr : String := ""
  deriving DecidableEq, Repr

namespace Endpoint

/-- Whether two endpoints are the same datasource. -/
def isSame (a b : Endpoint) : Bool :=
  a.name == b.name && a.shard == b.shard

/-- Whether an endpoint may join others: its weight is positive and it is not there yet. -/
def mayJoin (e : Endpoint) (items : List Endpoint) : Bool :=
  0 < e.weight && !items.any fun x => x.isSame e

@[simp] theorem isSame_self (e : Endpoint) : e.isSame e = true := by
  simp [isSame]

theorem isSame_comm (a b : Endpoint) : a.isSame b = b.isSame a := by
  simp only [isSame, Bool.beq_comm]

end Endpoint

end ShardRouting
