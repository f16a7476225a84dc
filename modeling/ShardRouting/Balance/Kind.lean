/-!
# Kinds of balancers

The ways to spread selections over weighted endpoints, and their names in settings.
-/

namespace ShardRouting

/-- A way to spread selections over weighted endpoints. -/
inductive BalanceKind where
  /-- A random draw, each endpoint in proportion to its weight. -/
  | random
  /-- A fixed cycle in which each endpoint comes in proportion to its weight. -/
  | roundRobin
  /-- A ring of checksums on which each endpoint has points in proportion to its weight. -/
  | hashRing
  deriving DecidableEq, Repr

namespace BalanceKind

/-- The name of a kind in settings. -/
def name : BalanceKind → String
  | .random => "random"
  | .roundRobin => "roundrobin"
  | .hashRing => "consistent_hash"

/-- The kinds. -/
def all : List BalanceKind := [.random, .roundRobin, .hashRing]

/-- The kind of a name in settings. -/
def ofName? (s : String) : Option BalanceKind :=
  all.find? fun k => k.name == s

end BalanceKind

end ShardRouting
