import Mathlib
import ShardRouting.Balance.Balancer
import ShardRouting.Integer

/-!
# What balancers select from

A balancer of any kind carries along something that is made from its endpoints: a sum of weights, a
schedule or a ring. A selection gives one of the endpoints. What is carried along is counted in
machine words, though, and where the count vanishes in a word nothing is selected. No count that is
within a word vanishes unless there are no endpoints.

* `Balancer.Sound`: what a balancer carries along fits its endpoints, which have positive weights.
* `Balancer.next_eq_none_iff`: a sound balancer selects nothing exactly where its count vanishes.
* `Balancer.Bounded`: the count is within a word; `Balancer.vanishes_iff_of_bounded`: such a count
  vanishes only if there are no endpoints.
* `Balancer.items_build`: the endpoints of a balancer are those of positive weight among the ones it
  is built from, in their order.
-/

namespace ShardRouting

/-- Related pairs of the members of two lists, counted from either list. -/
theorem sum_countP_comm {α β : Type} (p : α → β → Bool) (as : List α) (bs : List β) :
    (as.map fun a => bs.countP fun b => p a b).sum =
      (bs.map fun b => as.countP fun a => p a b).sum := by
  induction as with
  | nil => simp
  | cons a as ih =>
    have hsplit : ∀ cs : List β, (cs.map fun b => (a :: as).countP fun a => p a b).sum =
        (cs.countP fun b => p a b) + (cs.map fun b => as.countP fun a => p a b).sum := by
      intro cs
      induction cs with
      | nil => simp
      | cons c cs ihc =>
        simp only [List.map_cons, List.sum_cons, List.countP_cons] at ihc ⊢
        omega
    rw [List.map_cons, List.sum_cons, ih, hsplit]

/-! ### Random draws -/

namespace RandomBalance

variable {b : RandomBalance} {draw : Nat} {e : Endpoint}

/-- A draw gives one of the endpoints. -/
theorem mem_items_of_next (h : b.next draw = some e) : e ∈ b.items := by
  have hwalk : ∀ (es : List Endpoint) (remainder : Int64), walk remainder es = some e → e ∈ es := by
    intro es
    induction es with
    | nil => nofun
    | cons x es ih =>
      intro remainder h
      rw [walk] at h
      split at h
      · cases h
        exact List.mem_cons_self
      · exact List.mem_cons_of_mem _ (ih _ h)
  rw [next, pick] at h
  split at h
  · cases h
  · rcases Option.or_eq_some_iff.1 h with h | ⟨-, h⟩
    · exact hwalk _ _ h
    · exact List.mem_of_getLast? h

/-- The sum of the weights of endpoints, however great. -/
def total (items : List Endpoint) : Int :=
  (items.map fun e => e.weight.toInt).sum

@[simp] theorem total_cons (e : Endpoint) (items : List Endpoint) :
    total (e :: items) = e.weight.toInt + total items :=
  List.sum_cons

theorem total_append_singleton (items : List Endpoint) (e : Endpoint) :
    total (items ++ [e]) = total items + e.weight.toInt := by
  simp [total]

/-- Endpoints of positive weight have a positive sum. -/
theorem total_pos {items : List Endpoint} (hne : items ≠ []) (h : ∀ e ∈ items, 0 < e.weight) :
    0 < total items := by
  apply List.sum_pos
  · intro w hw
    obtain ⟨e, he, rfl⟩ := List.mem_map.1 hw
    exact Integer.toInt_pos.2 (h e he)
  · simpa using hne

theorem total_nonneg {items : List Endpoint} (h : ∀ e ∈ items, 0 < e.weight) : 0 ≤ total items := by
  by_cases hitems : items = []
  · rw [hitems]
    rfl
  · exact (total_pos hitems h).le

/-- A sum that is within a word is what the word of the sum denotes. -/
theorem toInt_of_le_greatest {items : List Endpoint} (h : ∀ e ∈ items, 0 < e.weight)
    (hbounded : total items ≤ Integer.greatest) :
    (Int64.ofInt (total items)).toInt = total items := by
  have hnonneg := total_nonneg h
  exact Integer.toInt_ofInt (by simp only [Integer.least]; omega) hbounded

/-- A draw gives nothing where there are no endpoints and where the sum is not positive. -/
theorem next_eq_none_iff : b.next draw = none ↔ b.items = [] ∨ b.sum ≤ 0 := by
  rw [next, pick]
  split
  · next h => simpa using h
  · next h =>
    have hsome : ¬ (b.items = [] ∨ b.sum ≤ 0) := by simpa using h
    refine iff_of_false (fun hnone => ?_) hsome
    obtain ⟨-, hlast⟩ := Option.or_eq_none_iff.1 hnone
    exact hsome (Or.inl (List.getLast?_eq_none_iff.1 hlast))

end RandomBalance

/-! ### Schedules -/

namespace RoundRobin

variable {weights : List Nat} {w : Nat}

/-- The step of a cycle divides all weights. -/
theorem commonStep_dvd (hw : w ∈ weights) : commonStep weights ∣ w := by
  have hfold : ∀ (ws : List Nat) (a : Nat),
      ws.foldl Nat.gcd a ∣ a ∧ ∀ w ∈ ws, ws.foldl Nat.gcd a ∣ w := by
    intro ws
    induction ws with
    | nil => simp
    | cons v ws ih =>
      intro a
      obtain ⟨hgcd, hrest⟩ := ih (Nat.gcd a v)
      refine ⟨hgcd.trans (Nat.gcd_dvd_left a v), ?_⟩
      intro u hu
      rcases List.mem_cons.1 hu with rfl | hu
      · exact hgcd.trans (Nat.gcd_dvd_right a u)
      · exact hrest u hu
  exact (hfold weights 0).2 w hw

/-- No weight exceeds the greatest. -/
theorem le_foldl_max (hw : w ∈ weights) : w ≤ weights.foldl max 0 := by
  have hfold : ∀ (ws : List Nat) (a : Nat),
      a ≤ ws.foldl max a ∧ ∀ w ∈ ws, w ≤ ws.foldl max a := by
    intro ws
    induction ws with
    | nil => simp
    | cons v ws ih =>
      intro a
      obtain ⟨hmax, hrest⟩ := ih (max a v)
      refine ⟨(Nat.le_max_left a v).trans hmax, ?_⟩
      intro u hu
      rcases List.mem_cons.1 hu with rfl | hu
      · exact (Nat.le_max_right a u).trans hmax
      · exact hrest u hu
  exact (hfold weights 0).2 w hw

/-- The thresholds of a cycle: the multiples of its step up to the greatest weight, falling. -/
def thresholds (weights : List Nat) : List Nat :=
  ((List.range (weights.foldl max 0 / commonStep weights)).map fun k =>
    (k + 1) * commonStep weights).reverse

/-- The positions of one full cycle over weights. -/
def cycle (weights : List Nat) : List Nat :=
  (thresholds weights).flatMap (reaching weights)

/-- How many selections a full cycle has: all weights in steps, however many. -/
def fullLength (weights : List Nat) : Nat :=
  (weights.map fun w => w / commonStep weights).sum

/-- The length that is counted in a word is the full length modulo the size of a word. -/
theorem cycleLength_eq (weights : List Nat) :
    cycleLength weights = Int64.ofNat (fullLength weights) := by
  have hfold : ∀ (ws : List Nat) (n : Nat),
      ws.foldl (fun length w => length + Int64.ofNat (w / commonStep weights)) (Int64.ofNat n) =
        Int64.ofNat (n + (ws.map fun w => w / commonStep weights).sum) := by
    intro ws
    induction ws with
    | nil => exact fun n => rfl
    | cons w ws ih =>
      intro n
      rw [List.foldl_cons, ← Int64.ofNat_add, ih, List.map_cons, List.sum_cons, Nat.add_assoc]
  have hlength := hfold weights 0
  rwa [Nat.zero_add] at hlength

/-- What is laid out for falling thresholds is what the thresholds take, up to the wanted length. -/
theorem layOut_eq (weights : List Nat) (step k wanted : Nat) : layOut weights step k wanted =
    (((List.range k).map fun k => (k + 1) * step).reverse.flatMap (reaching weights)).take
      wanted := by
  induction k generalizing wanted with
  | zero => simp [layOut]
  | succ k ih =>
    rw [layOut, List.range_succ, List.map_append, List.reverse_append]
    simp only [List.map_singleton, List.reverse_singleton, List.singleton_append,
      List.flatMap_cons, List.take_append, ih, List.length_take]
    split
    · next hwanted => simp [hwanted]
    · congr 2
      omega

/-- A schedule is the beginning of a cycle, as long as the length that is counted in a word. -/
theorem scheduleOf_eq_take (weights : List Nat) :
    scheduleOf weights = (cycle weights).take (cycleLength weights).toNatClampNeg :=
  layOut_eq ..

/-- A length within a word is what is counted. -/
theorem toInt_cycleLength (hbounded : (fullLength weights : Int) ≤ Integer.greatest) :
    (cycleLength weights).toInt = fullLength weights := by
  rw [cycleLength_eq, ← Int64.ofInt_eq_ofNat]
  exact Integer.toInt_ofInt (by simp only [Integer.least]; omega) hbounded

/-- A cycle goes through positions of weights. -/
theorem lt_of_mem_cycle {i : Nat} (h : i ∈ cycle weights) : i < weights.length := by
  obtain ⟨threshold, -, h⟩ := List.mem_flatMap.1 h
  obtain ⟨⟨v, j⟩, hentry, rfl⟩ := List.mem_map.1 h
  have hj := List.mem_zipIdx (List.mem_filter.1 hentry).1
  omega

/-- A schedule goes through positions of weights. -/
theorem lt_of_mem_scheduleOf {i : Nat} (h : i ∈ scheduleOf weights) : i < weights.length := by
  rw [scheduleOf_eq_take] at h
  exact lt_of_mem_cycle (List.mem_of_mem_take h)

section Positive

variable (hne : weights ≠ []) (hpos : ∀ w ∈ weights, 0 < w)
include hne hpos

theorem commonStep_pos : 0 < commonStep weights := by
  obtain ⟨w, rest, rfl⟩ := List.exists_cons_of_ne_nil hne
  exact Nat.pos_of_dvd_of_pos (commonStep_dvd List.mem_cons_self) (hpos w List.mem_cons_self)

/-- A full cycle over positive weights has a selection: each weight has a step. -/
theorem fullLength_pos : 0 < fullLength weights := by
  obtain ⟨w, rest, rfl⟩ := List.exists_cons_of_ne_nil hne
  have hw : w ∈ w :: rest := List.mem_cons_self
  have hle : commonStep (w :: rest) ≤ w := Nat.le_of_dvd (hpos w hw) (commonStep_dvd hw)
  have hsteps : 0 < w / commonStep (w :: rest) := Nat.div_pos hle (commonStep_pos hne hpos)
  rw [fullLength, List.map_cons, List.sum_cons]
  omega

/-- A cycle over positive weights is not empty: every weight reaches the last threshold. -/
theorem cycle_ne_nil : cycle weights ≠ [] := by
  have hstep := commonStep_pos hne hpos
  obtain ⟨w, rest, rfl⟩ := List.exists_cons_of_ne_nil hne
  have hw : w ∈ w :: rest := List.mem_cons_self
  have hle : commonStep (w :: rest) ≤ w := Nat.le_of_dvd (hpos w hw) (commonStep_dvd hw)
  have hlast : commonStep (w :: rest) ∈ thresholds (w :: rest) := by
    have hcount : 0 < (w :: rest).foldl max 0 / commonStep (w :: rest) :=
      Nat.div_pos (hle.trans (le_foldl_max hw)) hstep
    simp only [thresholds, List.mem_reverse, List.mem_map, List.mem_range]
    exact ⟨0, hcount, by simp⟩
  have hreach : 0 ∈ reaching (w :: rest) (commonStep (w :: rest)) := by
    simp only [reaching, List.mem_map, List.mem_filter]
    exact ⟨(w, 0), ⟨by simp, by simpa using hle⟩, rfl⟩
  exact List.ne_nil_of_mem (List.mem_flatMap.2 ⟨_, hlast, hreach⟩)

end Positive

/-- A schedule over positive weights is empty where the length that is counted is not positive. -/
theorem scheduleOf_eq_nil_iff (hpos : ∀ w ∈ weights, 0 < w) :
    scheduleOf weights = [] ↔ cycleLength weights ≤ 0 := by
  have hlength : (cycleLength weights).toNatClampNeg = 0 ↔ cycleLength weights ≤ 0 := by
    rw [← Integer.toInt_nonpos, Int64.toNatClampNeg, Int.toNat_eq_zero]
  rw [scheduleOf_eq_take, List.take_eq_nil_iff, hlength, or_iff_left_iff_imp]
  intro hcycle
  have hnil : weights = [] := by
    by_contra hne
    exact cycle_ne_nil hne hpos hcycle
  rw [hnil]
  exact Int64.le_refl 0

variable {b : RoundRobin}

/-- The weights as natural numbers, as schedules are made from them. -/
def naturalWeights (b : RoundRobin) : List Nat :=
  b.items.map fun e => e.weight.toNatClampNeg

theorem naturalWeights_pos (h : ∀ e ∈ b.items, 0 < e.weight) : ∀ w ∈ b.naturalWeights, 0 < w := by
  intro w hw
  obtain ⟨e, he, rfl⟩ := List.mem_map.1 hw
  exact Integer.toNatClampNeg_pos.2 (h e he)

/-- What a round robin carries along is the schedule of its endpoints. -/
def Scheduled (b : RoundRobin) : Prop :=
  b.schedule = (scheduleOf b.naturalWeights).toArray

/-- By the schedule of endpoints of positive weight nothing is selected where the length of a cycle
that is counted is not positive. -/
theorem next_eq_none_iff (h : b.Scheduled) (hpos : ∀ e ∈ b.items, 0 < e.weight) :
    b.next.1 = none ↔ cycleLength b.naturalWeights ≤ 0 := by
  rw [Scheduled] at h
  rw [← scheduleOf_eq_nil_iff (naturalWeights_pos hpos)]
  by_cases hnil : scheduleOf b.naturalWeights = []
  · have hempty : b.schedule = #[] := by rw [h, hnil]
    simp [next, hempty, hnil]
  · have hsize : 0 < b.schedule.size := by
      rw [h]
      simpa using List.length_pos_iff.2 hnil
    have hlt : b.cursor % b.schedule.size < b.schedule.size := Nat.mod_lt _ hsize
    have hvalid : ∀ i ∈ b.schedule, i < b.items.length := by
      intro i hi
      rw [h] at hi
      simpa [naturalWeights] using lt_of_mem_scheduleOf (List.mem_toArray.1 hi)
    have hindex := hvalid _ (Array.getElem_mem hlt)
    have hne : b.schedule.isEmpty = false := by
      rw [Array.isEmpty_eq_false_iff]
      exact Array.ne_empty_of_size_pos hsize
    rw [next, hne, if_neg Bool.false_ne_true]
    simp [Array.getElem?_eq_getElem hlt, List.getElem?_eq_getElem hindex, hnil]

end RoundRobin

/-! ### Rings -/

namespace HashRing

/-- Points without those that another follows are among the points, and one is left. -/
theorem lastOfEach_spec (points : List (UInt32 × Nat)) :
    lastOfEach points ⊆ points ∧ (points ≠ [] → lastOfEach points ≠ []) := by
  induction points with
  | nil => simp [lastOfEach]
  | cons a points ih =>
    cases points with
    | nil => simp [lastOfEach]
    | cons b rest =>
      rw [lastOfEach]
      split
      · exact ⟨List.subset_cons_of_subset a ih.1, fun _ => ih.2 (by simp)⟩
      · exact ⟨List.cons_subset_cons a ih.1, fun _ => by simp⟩

variable {replicas : Nat} {items : List Endpoint}

/-- Every point of a ring belongs to an endpoint. -/
theorem lt_of_mem_pointsOf {point : UInt32 × Nat} (h : point ∈ pointsOf replicas items) :
    point.2 < items.length := by
  have hplaced := (lastOfEach_spec _).1 h
  rw [List.mem_mergeSort, List.mem_flatMap] at hplaced
  obtain ⟨⟨e, i⟩, hentry, hpoint⟩ := hplaced
  obtain ⟨place, -, rfl⟩ := List.mem_map.1 hpoint
  have hi := List.mem_zipIdx hentry
  omega

theorem pointsOf_nil : pointsOf replicas [] = [] := by
  simp [pointsOf, lastOfEach]

/-- The weight of an endpoint, times the replicas, is positive if both are. -/
theorem replicas_mul_pos (hreplicas : 0 < replicas) {weight : Int64} (h : 0 < weight) :
    0 < replicas * weight.toNatClampNeg :=
  Nat.mul_pos hreplicas (Integer.toNatClampNeg_pos.2 h)

/-- An endpoint of positive weight has as many points as its weight and the replicas say, modulo the
size of a word. -/
theorem toNat_pointCount {weight : Int64} (h : 0 < weight) :
    (pointCount replicas weight).toNat =
      replicas * weight.toNatClampNeg % UInt64.size := by
  have hle : (0 : Int64) ≤ weight := Int64.le_of_lt h
  rw [pointCount, UInt64.toNat_mul, UInt64.toNat_ofNat', Int64.toNat_toUInt64_of_le hle,
    Nat.mod_mul_mod]

/-- An endpoint of positive weight has no points where their number vanishes in a word. -/
theorem ownPoints_eq_nil_iff {e : Endpoint} (h : 0 < e.weight) :
    ownPoints replicas e = [] ↔ UInt64.size ∣ replicas * e.weight.toNatClampNeg := by
  rw [ownPoints, List.map_eq_nil_iff, List.range_eq_nil, toNat_pointCount h, Nat.dvd_iff_mod_eq_zero]

/-- A ring is empty where no endpoint has a point. -/
theorem pointsOf_eq_nil_iff :
    pointsOf replicas items = [] ↔ ∀ e ∈ items, ownPoints replicas e = [] := by
  constructor
  · intro hnil e he
    by_contra hown
    obtain ⟨place, hplace⟩ := List.exists_mem_of_ne_nil _ hown
    obtain ⟨i, hi, rfl⟩ := List.getElem_of_mem he
    refine (lastOfEach_spec _).2 ?_ hnil
    apply List.ne_nil_of_mem (a := (place, i))
    rw [List.mem_mergeSort, List.mem_flatMap]
    refine ⟨(items[i], i), ?_, List.mem_map.2 ⟨place, hplace, rfl⟩⟩
    rw [List.mem_zipIdx_iff_getElem?]
    exact List.getElem?_eq_getElem hi
  · intro hall
    rw [List.eq_nil_iff_forall_not_mem]
    intro point hpoint
    have hplaced := (lastOfEach_spec _).1 hpoint
    rw [List.mem_mergeSort, List.mem_flatMap] at hplaced
    obtain ⟨⟨e, i⟩, hentry, hmap⟩ := hplaced
    obtain ⟨place, hplace, -⟩ := List.mem_map.1 hmap
    rw [hall e (List.mem_of_getElem? (List.mem_zipIdx_iff_getElem?.1 hentry))] at hplace
    cases hplace

/-- What a ring carries along is the points of its endpoints, at least one for a unit of weight. -/
def Pointed (r : HashRing) : Prop :=
  0 < r.replicas ∧ r.points = pointsOf r.replicas r.items

/-- By the points of endpoints nothing is selected where none of them has a point. -/
theorem next_eq_none_iff {r : HashRing} {draw : Nat} (h : r.Pointed) :
    r.next draw = none ↔ ∀ e ∈ r.items, ownPoints r.replicas e = [] := by
  obtain ⟨-, hpoints⟩ := h
  rw [← pointsOf_eq_nil_iff, ← hpoints]
  constructor
  · intro hnone
    by_contra hne
    obtain ⟨point, hpoint⟩ : ∃ point,
        (r.points.find? fun p => UInt32.ofNat draw ≤ p.1).or r.points.head? = some point := by
      apply Option.isSome_iff_exists.1
      rw [Option.isSome_or]
      simp [List.isSome_head?, hne]
    have hmem : point ∈ r.points := by
      rcases Option.or_eq_some_iff.1 hpoint with h | ⟨-, h⟩
      · exact List.mem_of_find?_eq_some h
      · exact List.mem_of_head? h
    rw [hpoints] at hmem
    have hindex := lt_of_mem_pointsOf hmem
    simp [next, locate, hpoint, List.getElem?_eq_getElem hindex] at hnone
  · intro hnil
    rw [next, locate, hnil]
    rfl

end HashRing

/-! ### Balancers of any kind -/

namespace Balancer

/-- What a balancer carries along fits its endpoints. -/
def Fits : Balancer → Prop
  | .random b => b.sum = Int64.ofInt (RandomBalance.total b.items)
  | .roundRobin b => b.Scheduled
  | .hashRing b => b.Pointed

/-- A balancer has endpoints of positive weight only, and what it carries along fits them. -/
structure Sound (b : Balancer) : Prop where
  /-- The weights are positive. -/
  positive : ∀ e ∈ b.items, 0 < e.weight
  /-- What it carries along fits. -/
  fits : b.Fits

/-- What a balancer counts up from the weights of its endpoints is within a word: the sum of the
weights, the length of a cycle, or the points of each endpoint. -/
def Bounded : Balancer → Prop
  | .random b => RandomBalance.total b.items ≤ Integer.greatest
  | .roundRobin b => RoundRobin.fullLength b.naturalWeights ≤ Integer.greatest
  | .hashRing b => ∀ e ∈ b.items, b.replicas * e.weight.toNatClampNeg < UInt64.size

/-- What a balancer counts up from the weights of its endpoints vanishes in a word, or is negative
there. -/
def Vanishes : Balancer → Prop
  | .random b => Int64.ofInt (RandomBalance.total b.items) ≤ 0
  | .roundRobin b => Int64.ofNat (RoundRobin.fullLength b.naturalWeights) ≤ 0
  | .hashRing b => ∀ e ∈ b.items, UInt64.size ∣ b.replicas * e.weight.toNatClampNeg

instance : DecidablePred Bounded
  | .random _ => inferInstanceAs (Decidable (_ ≤ _))
  | .roundRobin _ => inferInstanceAs (Decidable (_ ≤ _))
  | .hashRing _ => inferInstanceAs (Decidable (∀ e ∈ _, _ < _))

instance : DecidablePred Vanishes
  | .random _ => inferInstanceAs (Decidable (_ ≤ _))
  | .roundRobin _ => inferInstanceAs (Decidable (_ ≤ _))
  | .hashRing _ => inferInstanceAs (Decidable (∀ e ∈ _, _ ∣ _))

variable {b : Balancer} {draw : Nat} {e : Endpoint}

/-- A selection gives one of the endpoints. -/
theorem mem_items_of_next (h : (b.next draw).1 = some e) : e ∈ b.items := by
  cases b with
  | random r => exact RandomBalance.mem_items_of_next h
  | roundRobin r =>
    rw [show ((roundRobin r).next draw).1 = r.next.1 from rfl, RoundRobin.next] at h
    split at h
    · cases h
    · obtain ⟨i, -, hi⟩ := Option.bind_eq_some_iff.1 h
      exact List.mem_of_getElem? hi
  | hashRing r =>
    obtain ⟨point, -, hpoint⟩ := Option.bind_eq_some_iff.1 h
    exact List.mem_of_getElem? hpoint

/-- A selection leaves the endpoints as they are. -/
theorem items_next (b : Balancer) (draw : Nat) : (b.next draw).2.items = b.items := by
  cases b with
  | random r => rfl
  | hashRing r => rfl
  | roundRobin r =>
    show r.next.2.items = r.items
    rw [RoundRobin.next]
    split <;> rfl

/-- Without endpoints there is nothing to count. -/
theorem vanishes_of_nil (hitems : b.items = []) : b.Vanishes := by
  cases b with
  | random r =>
    show Int64.ofInt (RandomBalance.total r.items) ≤ 0
    rw [show r.items = [] from hitems]
    exact Int64.le_refl 0
  | roundRobin r =>
    show Int64.ofNat (RoundRobin.fullLength r.naturalWeights) ≤ 0
    rw [RoundRobin.naturalWeights, show r.items = [] from hitems]
    exact Int64.le_refl 0
  | hashRing r =>
    intro e he
    rw [show r.items = [] from hitems] at he
    cases he

/-- A sound balancer selects nothing exactly where its count vanishes. -/
theorem next_eq_none_iff (h : b.Sound) : (b.next draw).1 = none ↔ b.Vanishes := by
  obtain ⟨hpos, hfits⟩ := h
  cases b with
  | random r =>
    have hsum : r.sum = Int64.ofInt (RandomBalance.total r.items) := hfits
    refine RandomBalance.next_eq_none_iff.trans ?_
    rw [hsum]
    exact or_iff_right_of_imp fun hitems => vanishes_of_nil (b := .random r) hitems
  | roundRobin r =>
    refine (RoundRobin.next_eq_none_iff hfits hpos).trans ?_
    rw [RoundRobin.cycleLength_eq]
    rfl
  | hashRing r =>
    refine (HashRing.next_eq_none_iff hfits).trans (forall₂_congr fun e he => ?_)
    exact HashRing.ownPoints_eq_nil_iff (hpos e he)

/-- A count that is within a word vanishes only if there are no endpoints. -/
theorem vanishes_iff_of_bounded (h : b.Sound) (hbounded : b.Bounded) :
    b.Vanishes ↔ b.items = [] := by
  refine ⟨fun hvanishes => ?_, vanishes_of_nil⟩
  obtain ⟨hpos, hfits⟩ := h
  by_contra hitems
  cases b with
  | random r =>
    have htotal : 0 < RandomBalance.total r.items := RandomBalance.total_pos hitems hpos
    have hvalue : (Int64.ofInt (RandomBalance.total r.items)).toInt =
        RandomBalance.total r.items := RandomBalance.toInt_of_le_greatest hpos hbounded
    have hle := Integer.toInt_nonpos.2 hvanishes
    rw [hvalue] at hle
    omega
  | roundRobin r =>
    have hne : r.naturalWeights ≠ [] := fun hnil => hitems (List.map_eq_nil_iff.1 hnil)
    have hlength := RoundRobin.fullLength_pos hne (RoundRobin.naturalWeights_pos hpos)
    have hvalue := RoundRobin.toInt_cycleLength hbounded
    have hle := Integer.toInt_nonpos.2 hvanishes
    rw [← RoundRobin.cycleLength_eq, hvalue] at hle
    omega
  | hashRing r =>
    obtain ⟨e, he⟩ := List.exists_mem_of_ne_nil _ hitems
    have hcount := HashRing.replicas_mul_pos hfits.1 (hpos e he)
    exact Nat.not_dvd_of_pos_of_lt hcount (hbounded e he) (hvanishes e he)

@[simp] theorem items_withCursor (b : Balancer) (n : Nat) : (b.withCursor n).items = b.items := by
  cases b <;> rfl

/-- Whether a balancer is sound does not depend on its position. -/
theorem sound_withCursor {n : Nat} : (b.withCursor n).Sound ↔ b.Sound := by
  cases b <;> exact ⟨fun h => ⟨h.positive, h.fits⟩, fun h => ⟨h.positive, h.fits⟩⟩

/-- A selection changes nothing but the position. -/
theorem withCursor_next (b : Balancer) (draw n : Nat) :
    (b.next draw).2.withCursor n = b.withCursor n := by
  cases b with
  | random r => rfl
  | hashRing r => rfl
  | roundRobin r =>
    show (roundRobin r.next.2).withCursor n = _
    rw [RoundRobin.next]
    split <;> rfl

/-! ### Building balancers -/

theorem items_add (b : Balancer) (e : Endpoint) :
    (b.add e).items = if e.mayJoin b.items then b.items ++ [e] else b.items := by
  by_cases h : e.mayJoin b.items
  · rw [if_pos h]
    cases b with
    | random r => exact congrArg RandomBalance.items (if_pos h)
    | roundRobin r => exact congrArg RoundRobin.items (if_pos h)
    | hashRing r => exact congrArg HashRing.items (if_pos h)
  · rw [if_neg h]
    cases b with
    | random r => exact congrArg RandomBalance.items (if_neg h)
    | roundRobin r => exact congrArg RoundRobin.items (if_neg h)
    | hashRing r => exact congrArg HashRing.items (if_neg h)

/-- An endpoint that joins leaves a balancer at its position. -/
theorem withCursor_add {n : Nat} (h : b.withCursor n = b) : (b.add e).withCursor n = b.add e := by
  cases b with
  | random r => rfl
  | hashRing r => rfl
  | roundRobin r =>
    simp only [add, RoundRobin.add]
    split
    · have hcursor : n = r.cursor := congrArg (fun b => b.cursor?.getD 0) h
      rw [hcursor]
      rfl
    · exact h

/-- A sound balancer stays so when an endpoint joins. -/
theorem sound_add (h : b.Sound) (e : Endpoint) : (b.add e).Sound := by
  obtain ⟨hpos, hfits⟩ := h
  have hpositive : ∀ x ∈ (b.add e).items, 0 < x.weight := by
    rw [items_add]
    split
    · next hjoin =>
      have hweight : 0 < e.weight := by
        simp only [Endpoint.mayJoin, Bool.and_eq_true, decide_eq_true_eq] at hjoin
        exact hjoin.1
      intro x hx
      rcases List.mem_append.1 hx with hx | hx
      · exact hpos x hx
      · obtain rfl := List.mem_singleton.1 hx
        exact hweight
    · exact hpos
  refine ⟨hpositive, ?_⟩
  cases b with
  | random r =>
    simp only [add, RandomBalance.add]
    split
    · have hsum : r.sum = Int64.ofInt (RandomBalance.total r.items) := hfits
      show r.sum + e.weight = Int64.ofInt (RandomBalance.total (r.items ++ [e]))
      rw [hsum, RandomBalance.total_append_singleton, Int64.ofInt_add, Int64.ofInt_toInt]
    · exact hfits
  | roundRobin r =>
    simp only [add, RoundRobin.add]
    split
    · rfl
    · exact hfits
  | hashRing r =>
    simp only [add, HashRing.add]
    split
    · exact ⟨hfits.1, rfl⟩
    · exact hfits

theorem sound_empty (replicas : Nat) (kind : BalanceKind) : (empty replicas kind).Sound := by
  cases kind with
  | random => exact ⟨nofun, rfl⟩
  | roundRobin => exact ⟨nofun, rfl⟩
  | hashRing =>
    exact ⟨nofun, Nat.lt_of_lt_of_le Nat.zero_lt_one (Nat.le_max_right ..),
      HashRing.pointsOf_nil.symm⟩

/-- A balancer that is built is sound and at the beginning of its cycle. -/
theorem sound_build (kind : BalanceKind) (replicas : Nat) (endpoints : List Endpoint) :
    (build kind replicas endpoints).Sound ∧
      (build kind replicas endpoints).withCursor 0 = build kind replicas endpoints := by
  have hfold : ∀ (es : List Endpoint) (b : Balancer), b.Sound → b.withCursor 0 = b →
      (es.foldl add b).Sound ∧ (es.foldl add b).withCursor 0 = es.foldl add b := by
    intro es
    induction es with
    | nil => exact fun b hsound hcursor => ⟨hsound, hcursor⟩
    | cons e es ih =>
      exact fun b hsound hcursor => ih (b.add e) (sound_add hsound e) (withCursor_add hcursor)
  apply hfold endpoints (empty replicas kind) (sound_empty replicas kind)
  cases kind <;> rfl

/-- The endpoints of a balancer are those of positive weight among the ones it is built from, where
these are all different. -/
theorem items_build (kind : BalanceKind) (replicas : Nat) {endpoints : List Endpoint}
    (h : endpoints.Pairwise fun a b => a.isSame b = false) :
    (build kind replicas endpoints).items = endpoints.filter fun e => 0 < e.weight := by
  have hfold : ∀ (es : List Endpoint) (b : Balancer),
      (b.items ++ es).Pairwise (fun a b => a.isSame b = false) →
      (es.foldl add b).items = b.items ++ es.filter fun e => 0 < e.weight := by
    intro es
    induction es with
    | nil => simp
    | cons e es ih =>
      intro b hb
      have hnew : b.items.any (fun x => x.isSame e) = false := by
        rw [List.any_eq_false]
        intro x hx
        have := (List.pairwise_append.1 hb).2.2 x hx e List.mem_cons_self
        simp [this]
      have hadd : (b.add e).items = b.items ++ if 0 < e.weight then [e] else [] := by
        rw [items_add, Endpoint.mayJoin, hnew]
        by_cases hweight : 0 < e.weight <;> simp [hweight]
      have hpairwise : ((b.add e).items ++ es).Pairwise fun a b => a.isSame b = false := by
        have hsub : ((b.add e).items ++ es).Sublist (b.items ++ e :: es) := by
          rw [hadd, List.append_assoc]
          apply List.Sublist.append (List.Sublist.refl _)
          by_cases hweight : 0 < e.weight <;> simp [hweight]
        exact hb.sublist hsub
      rw [List.foldl_cons, ih (b.add e) hpairwise, hadd, List.append_assoc]
      by_cases hweight : 0 < e.weight <;> simp [hweight]
  have hempty : (empty replicas kind).items = [] := by cases kind <;> rfl
  have hitems := hfold endpoints (empty replicas kind) (by simpa [hempty] using h)
  rwa [hempty, List.nil_append] at hitems

end Balancer

end ShardRouting
