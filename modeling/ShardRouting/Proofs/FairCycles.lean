import Mathlib
import ShardRouting.Proofs.CycleLayout
import ShardRouting.Proofs.Membership

/-!
# Fair shares of a cycle

A round robin gives each endpoint its share exactly: as many selections as the cycle is long, from
any position on, give each endpoint as often as its weight has steps of the greatest common
divisor. This needs a cycle whose length is within a word. Clones of a balancer move on in their
cycles together, so this is said of families of clones, after any calls on any of them.

* `count_cycle`: how often a position stands in a cycle.
* `nextMany_eq`: what selections in a row give; over a whole cycle it is the schedule turned.
* `RoundRobin.Sound`: the schedule of a round robin is that of its endpoints, which are different
  and have positive weights; every call keeps this (`Family.sound_after`).
* `Family.fair_after`: laying out the schedule ends, and whole cycles within a word are fair.
-/

namespace ShardRouting

namespace RoundRobin

/-! ### Shares in a cycle -/

section Shares

variable {weights : List Nat}

/-- A position reaches a threshold once or not at all. -/
theorem count_reaching {i : Nat} (hi : i < weights.length) (threshold : Nat) :
    (reaching weights threshold).count i = if threshold ≤ weights.getD i 0 then 1 else 0 := by
  rw [reaching_eq]
  split
  · next hreaches =>
    rw [List.count_filter (by simpa using hreaches)]
    exact List.count_eq_one_of_mem List.nodup_range (List.mem_range.2 hi)
  · next hreaches =>
    apply List.count_eq_zero_of_not_mem
    intro hmem
    exact hreaches (by simpa using (List.mem_filter.1 hmem).2)

/-- A position stands in a cycle as often as its weight has steps. -/
theorem count_cycle (hne : weights ≠ []) (hpos : ∀ w ∈ weights, 0 < w) {i : Nat}
    (hi : i < weights.length) : (cycle weights).count i = weights[i] / commonStep weights := by
  have hthresholds : ∀ ts : List Nat, (ts.flatMap (reaching weights)).count i =
      ts.countP fun t => t ≤ weights[i] := by
    intro ts
    induction ts with
    | nil => simp
    | cons t ts ih =>
      rw [List.flatMap_cons, List.count_append, ih, count_reaching hi, List.countP_cons,
        List.getD_eq_getElem _ _ hi]
      simp only [decide_eq_true_eq]
      omega
  rw [cycle, hthresholds]
  exact countP_thresholds hne hpos (List.getElem_mem hi)

end Shares

/-! ### Selections in a row -/

variable {b : RoundRobin}

/-- What selections in a row give: the endpoints of consecutive positions, round the end of the
schedule. -/
theorem nextMany_eq (hschedule : b.schedule ≠ #[]) (draw n : Nat) :
    ((Balancer.roundRobin b).nextMany draw n).1 = (List.range n).map fun k =>
      (b.schedule[(b.cursor + k) % b.schedule.size]?).bind fun i => b.items[i]? := by
  induction n generalizing b with
  | zero => rfl
  | succ n ih =>
    have hnext : (Balancer.roundRobin b).next draw =
        ((b.schedule[b.cursor % b.schedule.size]?).bind fun i => b.items[i]?,
          .roundRobin { b with cursor := b.cursor + 1 }) := by
      simp [Balancer.next, next, hschedule]
    rw [Balancer.nextMany, hnext, List.range_succ_eq_map, List.map_cons, List.map_map]
    have hmore := ih (b := { b with cursor := b.cursor + 1 }) hschedule
    simp only [hmore, Nat.add_zero, List.cons.injEq, true_and]
    apply List.map_congr_left
    intro k _
    simp only [Function.comp_apply, Nat.succ_eq_add_one]
    rw [show b.cursor + 1 + k = b.cursor + (k + 1) by omega]

/-- Over a whole cycle the selections are those of the schedule, turned to the position. -/
theorem nextMany_size (hschedule : b.schedule ≠ #[]) (draw : Nat) :
    ((Balancer.roundRobin b).nextMany draw b.schedule.size).1 =
      (b.schedule.toList.rotate b.cursor).map fun i => b.items[i]? := by
  rw [nextMany_eq hschedule]
  apply List.ext_getElem
  · simp
  · intro k hk₁ hk₂
    have hk : k < b.schedule.size := by simpa using hk₁
    have hlt : (b.cursor + k) % b.schedule.size < b.schedule.size :=
      Nat.mod_lt _ (Nat.zero_lt_of_lt hk)
    simp [List.getElem_rotate, Nat.add_comm k, Array.getElem?_eq_getElem hlt]

/-! ### States of a round robin -/

/-- A round robin is sound: its schedule is that of its endpoints, whose weights are positive and no
two of which are the same. -/
structure Sound (b : RoundRobin) : Prop where
  /-- The schedule is the cycle of the endpoints. -/
  scheduled : b.Scheduled
  /-- The weights are positive. -/
  positive : ∀ e ∈ b.items, 0 < e.weight
  /-- The endpoints are different. -/
  distinct : b.items.Pairwise fun x y => x.isSame y = false

theorem sound_empty : Sound {} :=
  ⟨rfl, by simp, List.Pairwise.nil⟩

theorem Sound.roster (h : b.Sound) : Endpoint.Roster b.items :=
  ⟨h.positive, h.distinct⟩

/-- What round robins are sound among the balancers of any kind. -/
theorem reached_iff {replicas : Nat} {m : Balancer} :
    m.Reached replicas .roundRobin ↔ ∃ b : RoundRobin, m = .roundRobin b ∧ b.Sound := by
  constructor
  · rintro ⟨hkind, -, hroster, hfits⟩
    cases m with
    | roundRobin b => exact ⟨b, rfl, hfits, hroster.positive, hroster.distinct⟩
    | random b => cases hkind
    | hashRing b => cases hkind
  · rintro ⟨b, rfl, hb⟩
    exact ⟨rfl, rfl, hb.roster, hb.scheduled⟩

/-- The weights of the endpoints, in their order. -/
def weights (b : RoundRobin) : List Int :=
  b.items.map fun e => e.weight.toInt

theorem Sound.weights_eq (h : b.Sound) : b.weights = b.naturalWeights.map Int.ofNat := by
  rw [weights, naturalWeights, List.map_map]
  apply List.map_congr_left
  intro e he
  exact (Integer.natCast_toNatClampNeg (h.positive e he)).symm

theorem Sound.toList_schedule (h : b.Sound) : b.schedule.toList = scheduleOf b.naturalWeights := by
  rw [h.scheduled, List.toList_toArray]

/-- The schedule of endpoints whose cycle is within a word is the cycle. -/
theorem Sound.toList_schedule_of_bounded (h : b.Sound) (hitems : b.items ≠ [])
    (hbounded : (fullLength b.naturalWeights : Int) ≤ Integer.greatest) :
    b.schedule.toList = cycle b.naturalWeights := by
  have hne : b.naturalWeights ≠ [] := by simpa [naturalWeights] using hitems
  rw [h.toList_schedule, scheduleOf_eq_cycle hne (naturalWeights_pos h.positive) hbounded]

/-! ### Whole cycles -/

/-- The selections of a whole cycle, from a position on. -/
def window (b : RoundRobin) (cursor draw : Nat) : List (Option Endpoint) :=
  ((Balancer.roundRobin { b with cursor }).nextMany draw b.schedule.size).1

/-- Whole cycles of a round robin are fair. -/
structure Fair (b : RoundRobin) : Prop where
  /-- The step of the thresholds is positive. -/
  step_pos : 0 < step b.weights
  /-- The step is the greatest common divisor of the weights. -/
  dvd_step_iff : ∀ d, d ∣ step b.weights ↔ ∀ e ∈ b.items, d ∣ e.weight.toInt
  /-- A cycle is as long as all weights together have steps. -/
  length : (b.schedule.size : Int) = (b.weights.map fun w => w / step b.weights).sum
  /-- Each selection of a cycle gives an endpoint. -/
  selects : ∀ cursor draw, ∀ o ∈ b.window cursor draw, ∃ e ∈ b.items, o = some e
  /-- From any position on, a cycle gives each endpoint as often as its weight has steps. -/
  share : ∀ cursor draw, ∀ e ∈ b.items,
    ((b.window cursor draw).count (some e) : Int) = e.weight.toInt / step b.weights

/-- The step of a cycle is divided by whatever divides all weights. -/
theorem dvd_commonStep_iff {weights : List Nat} {d : Nat} :
    d ∣ commonStep weights ↔ ∀ w ∈ weights, d ∣ w := by
  have hfold : ∀ (ws : List Nat) (a : Nat), d ∣ ws.foldl Nat.gcd a ↔ d ∣ a ∧ ∀ w ∈ ws, d ∣ w := by
    intro ws
    induction ws with
    | nil => simp
    | cons w ws ih =>
      intro a
      rw [List.foldl_cons, ih, Nat.dvd_gcd_iff, List.forall_mem_cons, and_assoc]
  simp [commonStep, hfold]

section Bounded

variable (h : b.Sound) (hitems : b.items ≠ [])
  (hbounded : (fullLength b.naturalWeights : Int) ≤ Integer.greatest)
include h hitems hbounded

/-- The schedule of endpoints is not empty. -/
theorem Sound.schedule_ne : b.schedule ≠ #[] := by
  intro hempty
  have hne : b.naturalWeights ≠ [] := by simpa [naturalWeights] using hitems
  have hcycle : cycle b.naturalWeights = [] := by
    rw [← h.toList_schedule_of_bounded hitems hbounded, hempty]
  exact cycle_ne_nil hne (naturalWeights_pos h.positive) hcycle

/-- From any position on, what a cycle gives is what stands in the schedule, in another order. -/
theorem Sound.perm_window (cursor draw : Nat) :
    (b.window cursor draw).Perm ((cycle b.naturalWeights).map fun i => b.items[i]?) := by
  have hwindow :=
    nextMany_size (b := { b with cursor }) (h.schedule_ne hitems hbounded) draw
  rw [window, hwindow, ← h.toList_schedule_of_bounded hitems hbounded]
  exact (List.rotate_perm _ _).map _

/-- A cycle over sound endpoints is fair if it is within a word. -/
theorem Sound.fair : b.Fair := by
  have hne : b.naturalWeights ≠ [] := by simpa [naturalWeights] using hitems
  have hpos := naturalWeights_pos h.positive
  have hstep : step b.weights = (commonStep b.naturalWeights : Int) := by
    rw [h.weights_eq, step_natCast]
  have hperm := h.perm_window hitems hbounded
  have hweight : ∀ e ∈ b.items, (e.weight.toNatClampNeg : Int) = e.weight.toInt :=
    fun e he => Integer.natCast_toNatClampNeg (h.positive e he)
  refine ⟨?_, ?_, ?_, ?_, ?_⟩
  · rw [hstep]
    exact Int.natCast_pos.2 (commonStep_pos hne hpos)
  · intro d
    rw [hstep, Int.dvd_natCast, dvd_commonStep_iff, naturalWeights, List.forall_mem_map]
    apply forall₂_congr
    intro e he
    rw [← hweight e he, Int.dvd_natCast]
  · rw [hstep, h.weights_eq, List.map_map, ← Array.length_toList,
      h.toList_schedule_of_bounded hitems hbounded, length_cycle hne hpos, fullLength,
      Nat.cast_list_sum, List.map_map]
    rfl
  · intro cursor draw o ho
    obtain ⟨i, hi, rfl⟩ := List.mem_map.1 ((hperm cursor draw).mem_iff.1 ho)
    have hlt : i < b.items.length := by simpa [naturalWeights] using lt_of_mem_cycle hi
    exact ⟨b.items[i], List.getElem_mem hlt, List.getElem?_eq_getElem hlt⟩
  · intro cursor draw e he
    obtain ⟨i, hi, rfl⟩ := List.getElem_of_mem he
    have hplace : ∀ j ∈ cycle b.naturalWeights, (b.items[j]? == some b.items[i]) = (j == i) := by
      intro j hj
      have hlt : j < b.items.length := by simpa [naturalWeights] using lt_of_mem_cycle hj
      rw [Bool.eq_iff_iff]
      simp [List.getElem?_eq_getElem hlt, h.roster.nodup.getElem_inj_iff]
    have hi' : i < b.naturalWeights.length := by simpa [naturalWeights] using hi
    have hcount : (b.window cursor draw).count (some b.items[i]) =
        (cycle b.naturalWeights).count i := by
      rw [(hperm cursor draw).count_eq, List.count_eq_countP, List.countP_map,
        List.count_eq_countP]
      apply List.countP_congr
      intro j hj
      rw [Function.comp_apply, hplace j hj]
    rw [hcount, count_cycle hne hpos hi', hstep, Int.natCast_ediv]
    simp [naturalWeights, hweight _ he]

end Bounded

end RoundRobin

/-! ### Families of clones -/

namespace Family

/-- All members of a family are sound round robins. -/
def Sound (f : Family) : Prop :=
  ∀ m ∈ f.members, ∃ b : RoundRobin, m = .roundRobin b ∧ b.Sound

variable {f : Family}

/-- Whatever is called, a family stays sound. -/
theorem sound_after (h : f.Sound) (calls : List (Nat × Call)) : (f.after calls).Sound := by
  have hreached : ∀ m ∈ f.members, m.Reached 0 .roundRobin :=
    fun m hm => RoundRobin.reached_iff.2 (h m hm)
  exact fun m hm => RoundRobin.reached_iff.1 (forall_reached hreached calls m hm)

/-- Behind any calls on an empty round robin and its clones, each of them is a round robin whose
schedule a run of the loop over its weights ends with, and whose whole cycles are fair if it has
endpoints and the length of a cycle is within a word. -/
theorem fair_after (replicas : Nat) (calls : List (Nat × Call)) :
    ∀ m ∈ (after ⟨[.empty replicas .roundRobin]⟩ calls).members, ∃ b : RoundRobin,
      m = .roundRobin b ∧
      (∃ last, RoundRobin.Layout.Ends b.weights {} last ∧ b.schedule.toList = last.schedule) ∧
      (b.items ≠ [] → m.Bounded → b.Fair) := by
  have hstart : Sound ⟨[.empty replicas .roundRobin]⟩ := by
    intro m hm
    rw [List.mem_singleton.1 hm]
    exact ⟨{}, rfl, RoundRobin.sound_empty⟩
  intro m hm
  obtain ⟨b, rfl, hb⟩ := sound_after hstart calls m hm
  obtain ⟨last, hends, hlast⟩ :=
    RoundRobin.ends_scheduleOf (RoundRobin.naturalWeights_pos hb.positive)
  refine ⟨b, rfl, ⟨last, ?_, ?_⟩, hb.fair⟩
  · rwa [hb.weights_eq]
  · rw [hb.toList_schedule, hlast]

/-- An endpoint of twice the weight of two others. -/
def trio : RoundRobin where
  items := [⟨"a", "s0", 4, "", "", "", ""⟩, ⟨"b", "s0", 2, "", "", "", ""⟩,
    ⟨"c", "s0", 2, "", "", "", ""⟩]
  schedule := #[0, 0, 1, 2]
  cursor := 2

/-- The calls that lead to it: three endpoints join, and one selection is made by a clone and one by
the first balancer. -/
def trioCalls : List (Nat × Call) :=
  trio.items.map (fun e => (0, .add e)) ++ [(0, .clone), (1, .next 0), (0, .next 0)]

/-- After these calls a cycle goes on at the third position, and is fair. -/
theorem fair_after_trio :
    .roundRobin trio ∈ (after ⟨[.empty 1 .roundRobin]⟩ trioCalls).members ∧ trio.items ≠ [] ∧
      Balancer.Bounded (.roundRobin trio) ∧
      (trio.window 2 0).map (fun o => o.map Endpoint.name) =
        [some "b", some "c", some "a", some "a"] ∧ trio.Fair := by
  have hmem : .roundRobin trio ∈ (after ⟨[.empty 1 .roundRobin]⟩ trioCalls).members := by
    decide +kernel
  have hbounded : Balancer.Bounded (.roundRobin trio) := by decide +kernel
  obtain ⟨b, hb, -, hfair⟩ := fair_after 1 trioCalls _ hmem
  obtain rfl : trio = b := Balancer.roundRobin.inj hb
  exact ⟨hmem, by decide, hbounded, by decide +kernel, hfair (by decide) hbounded⟩

end Family

end ShardRouting
