import Mathlib
import ShardRouting.Proofs.Membership

/-!
# Exact shares of random draws

A random balancer draws a number below the sum of the weights and walks along its endpoints until
the weights so far exceed it. As long as that sum is within a word, all draws, taken in order, give
each endpoint as often in a row as its weight says. So the shares are exact, every endpoint is drawn,
and the walk always ends at an endpoint: the last one is never needed in its stead.

* `RandomBalance.map_walk`: what the walks of all draws give.
* `RandomBalance.Exact`: the sum fits and the shares are exact; `Family.exact_after`.
-/

namespace ShardRouting

namespace RandomBalance

variable {items : List Endpoint} {b : RandomBalance}

/-! ### Walks -/

/-- A walk ends where the weight reaches the remainder, and what it goes on with is the rest of the
remainder: that of positive numbers never leaves a word. -/
theorem walk_cons {remainder : Int} (hpos : 0 < remainder) (hle : remainder ≤ Integer.greatest)
    {e : Endpoint} (hweight : 0 < e.weight) : walk (Int64.ofInt remainder) (e :: items) =
      if remainder ≤ e.weight.toInt then some e
      else walk (Int64.ofInt (remainder - e.weight.toInt)) items := by
  have hweight := Integer.toInt_pos.2 hweight
  have hrange := Integer.toInt_mem_range e.weight
  have hrest : (Int64.ofInt (remainder - e.weight.toInt)).toInt = remainder - e.weight.toInt :=
    Integer.toInt_ofInt (by simp only [Integer.least, Integer.greatest] at *; omega) (by omega)
  have hreached : Int64.ofInt (remainder - e.weight.toInt) ≤ 0 ↔ remainder ≤ e.weight.toInt := by
    rw [← Integer.toInt_nonpos, hrest]
    omega
  rw [walk, ← Int64.ofInt_toInt e.weight, ← Int64.ofInt_sub, Int64.ofInt_toInt]
  simp only [hreached]

/-- The walks of all draws below the sum, in order, give each endpoint as often in a row as its
weight says. -/
theorem map_walk (h : ∀ e ∈ items, 0 < e.weight) (hbounded : total items ≤ Integer.greatest) :
    (List.range (total items).toNat).map (fun draw : Nat => walk (Int64.ofInt (draw + 1)) items) =
      items.flatMap fun e => List.replicate e.weight.toNatClampNeg (some e) := by
  induction items with
  | nil => rfl
  | cons e items ih =>
    have hitems : ∀ x ∈ items, 0 < x.weight := fun x hx => h x (List.mem_cons_of_mem e hx)
    have hweight := h e List.mem_cons_self
    have hpos := Integer.toInt_pos.2 hweight
    have hnonneg := total_nonneg hitems
    rw [total_cons] at hbounded
    have hsplit : (total (e :: items)).toNat = e.weight.toNatClampNeg + (total items).toNat := by
      rw [total_cons, Int64.toNatClampNeg]
      omega
    rw [hsplit, List.range_add, List.map_append, List.map_map, List.flatMap_cons,
      ← ih hitems (by omega)]
    congr 1
    · -- the draws below the weight of the first endpoint
      apply List.eq_replicate_iff.2
      refine ⟨by simp, ?_⟩
      intro o ho
      obtain ⟨draw, hdraw, rfl⟩ := List.mem_map.1 ho
      have hlt := List.mem_range.1 hdraw
      rw [Int64.toNatClampNeg] at hlt
      rw [walk_cons (by omega) (by omega) hweight, if_pos (by omega)]
    · -- the others walk on with what the weight leaves of them
      apply List.map_congr_left
      intro draw hdraw
      have hlt := List.mem_range.1 hdraw
      simp only [Function.comp_apply, Int64.toNatClampNeg]
      rw [walk_cons (by omega) (by omega) hweight, if_neg (by omega)]
      congr 2
      omega

/-- A walk of a draw below the sum ends at an endpoint. -/
theorem exists_walk (h : ∀ e ∈ items, 0 < e.weight) (hbounded : total items ≤ Integer.greatest)
    {draw : Nat} (hdraw : (draw : Int) < total items) :
    ∃ e ∈ items, walk (Int64.ofInt (draw + 1)) items = some e := by
  have hmem : walk (Int64.ofInt (draw + 1)) items ∈
      (List.range (total items).toNat).map fun draw : Nat => walk (Int64.ofInt (draw + 1)) items :=
    List.mem_map.2 ⟨draw, List.mem_range.2 (by omega), rfl⟩
  rw [map_walk h hbounded] at hmem
  obtain ⟨e, he, hwalk⟩ := List.mem_flatMap.1 hmem
  exact ⟨e, he, List.eq_of_mem_replicate hwalk⟩

/-! ### Selections -/

/-- A random balancer is exact: the sum that it carries along is that of the weights, and of the
draws below it each endpoint gets as many as its weight says. -/
structure Exact (b : RandomBalance) : Prop where
  /-- The sum is that of the weights. -/
  sum_eq : b.sum.toInt = total b.items
  /-- Where there are endpoints there is something to draw. -/
  sum_pos : b.items ≠ [] → 0 < b.sum
  /-- The walk of a draw ends at an endpoint by itself, and that is what the draw selects. -/
  walks : ∀ draw : Nat, (draw : Int) < b.sum.toInt → ∃ e ∈ b.items,
    walk (Int64.ofNat draw + 1) b.items = some e ∧ b.next draw = some e
  /-- As many draws select an endpoint as its weight says. -/
  share : ∀ e ∈ b.items,
    (((List.range b.sum.toNatClampNeg).map b.next).count (some e) : Int) = e.weight.toInt
  /-- Some draw selects it. -/
  drawn : ∀ e ∈ b.items, ∃ draw : Nat, (draw : Int) < b.sum.toInt ∧ b.next draw = some e

/-- A draw is walked with the next number, in a word. -/
theorem ofNat_add_one (draw : Nat) : Int64.ofNat draw + 1 = Int64.ofInt (draw + 1) := by
  rw [Int64.ofInt_add, Int64.ofInt_eq_ofNat]
  rfl

/-- The selection of a draw below the sum is where its walk ends. -/
theorem next_eq_walk (hsum : b.sum.toInt = total b.items) (h : ∀ e ∈ b.items, 0 < e.weight)
    {draw : Nat} (hdraw : (draw : Int) < b.sum.toInt) :
    b.next draw = walk (Int64.ofInt (draw + 1)) b.items := by
  have hbounded : total b.items ≤ Integer.greatest := hsum ▸ (Integer.toInt_mem_range b.sum).2
  obtain ⟨e, he, hwalk⟩ := exists_walk h hbounded (hsum ▸ hdraw)
  have hmod : draw % b.sum.toNatClampNeg = draw :=
    Nat.mod_eq_of_lt (by rw [Int64.toNatClampNeg]; omega)
  have hpos : 0 < b.sum := Integer.toInt_pos.1 (by omega)
  have hsome : ¬ (b.items.isEmpty || decide (b.sum ≤ 0)) = true := by
    have hne : b.items ≠ [] := List.ne_nil_of_mem he
    simpa [hne] using hpos
  rw [next, hmod, pick, if_neg hsome, ofNat_add_one, hwalk, Option.some_or]

/-- In a list in which each of different things stands several times in a row, each stands as often
as it is repeated. -/
theorem count_flatMap_replicate (hnodup : items.Nodup) (n : Endpoint → Nat) {e : Endpoint}
    (he : e ∈ items) :
    (items.flatMap fun x => List.replicate (n x) (some x)).count (some e) = n e := by
  have hother : ∀ x, x ≠ e → x ∈ items →
      (List.count (some e) ∘ fun x => List.replicate (n x) (some x)) x = 0 := by
    intro x hx _
    simp [List.count_replicate, hx]
  rw [List.count_flatMap, List.sum_map_eq_nsmul_single e _ hother,
    List.count_eq_one_of_mem hnodup he]
  simp

theorem exact_of_roster (hsum : b.sum.toInt = total b.items) (h : Endpoint.Roster b.items) :
    b.Exact := by
  have hbounded : total b.items ≤ Integer.greatest := hsum ▸ (Integer.toInt_mem_range b.sum).2
  have hwalk : ∀ draw : Nat, (draw : Int) < b.sum.toInt →
      b.next draw = walk (Int64.ofInt (draw + 1)) b.items :=
    fun draw hdraw => next_eq_walk hsum h.positive hdraw
  have hdraws : (List.range b.sum.toNatClampNeg).map b.next =
      b.items.flatMap fun e => List.replicate e.weight.toNatClampNeg (some e) := by
    rw [← map_walk h.positive hbounded, ← hsum, Int64.toNatClampNeg]
    apply List.map_congr_left
    intro draw hdraw
    have hlt := List.mem_range.1 hdraw
    exact hwalk draw (by omega)
  refine ⟨hsum, ?_, ?_, ?_, ?_⟩
  · intro hne
    rw [← Integer.toInt_pos, hsum]
    exact total_pos hne h.positive
  · intro draw hdraw
    obtain ⟨e, he, hend⟩ := exists_walk h.positive hbounded (hsum ▸ hdraw)
    exact ⟨e, he, (ofNat_add_one draw).symm ▸ hend, (hwalk draw hdraw).trans hend⟩
  · intro e he
    rw [hdraws, count_flatMap_replicate h.nodup _ he]
    exact Integer.natCast_toNatClampNeg (h.positive e he)
  · intro e he
    have hmem : some e ∈ (List.range b.sum.toNatClampNeg).map b.next := by
      rw [hdraws]
      have hweight := Integer.toNatClampNeg_pos.2 (h.positive e he)
      exact List.mem_flatMap.2 ⟨e, he, List.mem_replicate.2 ⟨hweight.ne', rfl⟩⟩
    obtain ⟨draw, hdraw, hnext⟩ := List.mem_map.1 hmem
    have hlt := List.mem_range.1 hdraw
    rw [Int64.toNatClampNeg] at hlt
    exact ⟨draw, by omega, hnext⟩

end RandomBalance

namespace Balancer

/-- The random balancers among those that calls lead to. -/
theorem Reached.exists_random {replicas : Nat} {b : Balancer} (h : b.Reached replicas .random) :
    ∃ r : RandomBalance, b = .random r ∧ (b.Bounded → r.Exact) := by
  obtain ⟨hkind, -, hroster, hfits⟩ := h
  cases b with
  | random r =>
    refine ⟨r, rfl, fun hbounded => RandomBalance.exact_of_roster ?_ hroster⟩
    rw [show r.sum = _ from hfits]
    exact RandomBalance.toInt_of_le_greatest hroster.positive hbounded
  | roundRobin r => cases hkind
  | hashRing r => cases hkind

end Balancer

namespace Family

/-- Behind any calls on an empty random balancer and its clones, each of them is exact as long as the
sum of its weights is within a word. -/
theorem exact_after (replicas : Nat) (calls : List (Nat × Call)) :
    ∀ m ∈ (after ⟨[.empty replicas .random]⟩ calls).members, ∃ b : RandomBalance,
      m = .random b ∧ (m.Bounded → b.Exact) :=
  fun m hm => (reached_after replicas .random calls m hm).exists_random

/-- Two endpoints join a random balancer, one of them twice, and one leaves whose name is given with
another weight than it has. -/
def leavingCalls : List (Nat × Call) :=
  [(0, .add ⟨"ds0", "s0", 2, "", "", "", ""⟩), (0, .add ⟨"ds1", "s0", 3, "", "", "", ""⟩),
    (0, .add ⟨"ds1", "s0", 9, "", "", "", ""⟩), (0, .add ⟨"ds2", "s0", 1, "", "", "", ""⟩),
    (0, .remove ⟨"ds0", "s0", 5, "", "", "", ""⟩)]

/-- The balancer that is left. -/
def remaining : RandomBalance where
  items := [⟨"ds1", "s0", 3, "", "", "", ""⟩, ⟨"ds2", "s0", 1, "", "", "", ""⟩]
  sum := 4

/-- Of the four draws that are left three select the endpoint of weight three. -/
theorem exact_after_leaving :
    .random remaining ∈ (after ⟨[.empty 1 .random]⟩ leavingCalls).members ∧
      Balancer.Bounded (.random remaining) ∧
      (List.range 4).map (fun draw => (remaining.next draw).map Endpoint.name) =
        [some "ds1", some "ds1", some "ds1", some "ds2"] ∧ remaining.Exact := by
  have hmem : .random remaining ∈ (after ⟨[.empty 1 .random]⟩ leavingCalls).members := by
    decide +kernel
  have hbounded : Balancer.Bounded (.random remaining) := by decide +kernel
  obtain ⟨b, hb, hexact⟩ := exact_after 1 leavingCalls _ hmem
  obtain rfl : remaining = b := Balancer.random.inj hb
  exact ⟨hmem, hbounded, by decide +kernel, hexact hbounded⟩

end Family

end ShardRouting
