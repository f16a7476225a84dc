import Mathlib
import ShardRouting.Proofs.Balancers

/-!
# Laying out a cycle turn by turn

The schedule of a cycle can be laid out by a loop over the positions of the endpoints, round and
round, with a threshold that falls by one step in front of each round and starts from the greatest
weight again where it would not stay positive. The loop goes on until the schedule is as long as a
cycle must be, which is counted in a machine word. Over positive weights it always gets there, and
what it has laid out is the beginning of the cycle: all of it, if the length is within a word.

* `Layout.turn`: one turn of the loop; `Layout.Ends`: how a run of the loop ends.
* `layoutAfter`: the state behind any number of turns, in closed form; `turn_layoutAfter`: each turn
  leads from one to the next.
* `ends_scheduleOf`: the loop ends, and its schedule is that of the balancer;
  `scheduleOf_eq_cycle`: this is the cycle, if its length is within a word.
-/

namespace ShardRouting.RoundRobin

/-! ### The loop -/

/-- The greatest common divisor by Euclid's algorithm. -/
def euclid (x y : Int) : Int :=
  if y = 0 then x else euclid y (x.tmod y)
  termination_by y.natAbs
  decreasing_by
    rw [Int.natAbs_tmod]
    exact Nat.mod_lt _ (Int.natAbs_pos.2 ‹¬ y = 0›)

/-- By how much the threshold falls: the greatest common divisor of the weights. -/
def step (weights : List Int) : Int :=
  weights.foldl euclid 0

/-- The first threshold: the greatest weight. -/
def greatest (weights : List Int) : Int :=
  weights.max?.getD 0

/-- How many selections a cycle is to have, counted in a word. -/
def wordLength (weights : List Int) : Int64 :=
  weights.foldl (fun length w => length + Int64.ofInt (w.tdiv (step weights))) 0

/-- Where the loop stands. -/
structure Layout where
  /-- The position looked at last; before the first turn there is none. -/
  index : Int := -1
  /-- The threshold of the round. -/
  threshold : Int := 0
  /-- The schedule so far. -/
  schedule : List Nat := []

/-- One turn: the next position, with a new threshold in front of each round, is taken into the
schedule if its weight reaches the threshold. -/
def Layout.turn (weights : List Int) (l : Layout) : Layout :=
  let index := (l.index + 1).tmod weights.length
  let threshold :=
    if index = 0 then
      if l.threshold - step weights ≤ 0 then greatest weights else l.threshold - step weights
    else l.threshold
  let schedule :=
    if threshold ≤ weights.getD index.toNat 0 then l.schedule ++ [index.toNat] else l.schedule
  ⟨index, threshold, schedule⟩

/-- A run of the loop from one state ends in another: turns are made as long as the schedule is
shorter than a cycle. -/
inductive Layout.Ends (weights : List Int) : Layout → Layout → Prop where
  /-- The schedule is long enough. -/
  | done {l : Layout} (full : (wordLength weights).toInt ≤ l.schedule.length) : Ends weights l l
  /-- It is not, so a turn is made. -/
  | turn {l last : Layout} (short : l.schedule.length < (wordLength weights).toInt)
      (more : Ends weights (l.turn weights) last) : Ends weights l last

/-! ### Steps and thresholds of natural weights -/

theorem euclid_natCast (m n : Nat) : euclid m n = (Nat.gcd m n : Int) := by
  induction n using Nat.strongRecOn generalizing m with
  | ind n ih =>
    rw [euclid]
    by_cases hn : n = 0
    · simp [hn]
    · have hlt : m % n < n := Nat.mod_lt m (Nat.pos_of_ne_zero hn)
      rw [if_neg (by simpa using hn), Int.tmod_eq_emod_of_nonneg (by simp), ← Int.natCast_mod,
        ih _ hlt, Nat.gcd_comm n, ← Nat.gcd_rec, Nat.gcd_comm]

variable {weights : List Nat}

/-- The step of the loop is the step of the cycle. -/
theorem step_natCast (weights : List Nat) :
    step (weights.map Int.ofNat) = (commonStep weights : Int) := by
  have hfold : ∀ (ws : List Nat) (a : Nat),
      (ws.map Int.ofNat).foldl euclid a = (ws.foldl Nat.gcd a : Nat) := by
    intro ws
    induction ws with
    | nil => simp
    | cons w ws ih =>
      intro a
      rw [List.map_cons, List.foldl_cons, List.foldl_cons, ← ih, Int.ofNat_eq_natCast,
        euclid_natCast]
  exact hfold weights 0

/-- The greatest weight is one of the weights. -/
theorem foldl_max_mem (hne : weights ≠ []) (hpos : ∀ w ∈ weights, 0 < w) :
    weights.foldl max 0 ∈ weights := by
  have hfold : ∀ (ws : List Nat) (a : Nat), ws.foldl max a = a ∨ ws.foldl max a ∈ ws := by
    intro ws
    induction ws with
    | nil => simp
    | cons w ws ih =>
      intro a
      rw [List.foldl_cons]
      rcases ih (max a w) with h | h
      · rcases max_choice a w with hmax | hmax
        · exact Or.inl (h.trans hmax)
        · rw [h, hmax]
          exact Or.inr List.mem_cons_self
      · exact Or.inr (List.mem_cons_of_mem _ h)
  rcases hfold weights 0 with h | h
  · obtain ⟨w, rest, rfl⟩ := List.exists_cons_of_ne_nil hne
    have hw := hpos w List.mem_cons_self
    have hle : w ≤ (w :: rest).foldl max 0 := le_foldl_max List.mem_cons_self
    omega
  · exact h

/-- The first threshold of the loop is the greatest weight. -/
theorem greatest_natCast (hne : weights ≠ []) (hpos : ∀ w ∈ weights, 0 < w) :
    greatest (weights.map Int.ofNat) = (weights.foldl max 0 : Nat) := by
  have hmax : (weights.map Int.ofNat).max? = some ((weights.foldl max 0 : Nat) : Int) := by
    rw [List.max?_eq_some_iff]
    constructor
    · exact List.mem_map_of_mem (foldl_max_mem hne hpos)
    · intro w hw
      obtain ⟨v, hv, rfl⟩ := List.mem_map.1 hw
      exact Int.ofNat_le.2 (le_foldl_max hv)
  rw [greatest, hmax, Option.getD_some]

/-- The length that the loop aims at is the one that is counted for the balancer. -/
theorem wordLength_natCast (weights : List Nat) :
    wordLength (weights.map Int.ofNat) = cycleLength weights := by
  rw [wordLength, cycleLength, step_natCast, List.foldl_map]
  rfl

/-! ### Rounds -/

/-- How many rounds a cycle has: the greatest weight in steps. -/
def rounds (weights : List Nat) : Nat :=
  weights.foldl max 0 / commonStep weights

/-- The threshold of the turn with a number, counted from zero. -/
def thresholdAt (weights : List Nat) (turn : Nat) : Nat :=
  weights.foldl max 0 - turn / weights.length * commonStep weights

/-- Whether the turn with a number takes a position into the schedule. -/
def takes (weights : List Nat) (turn : Nat) : Bool :=
  thresholdAt weights turn ≤ weights.getD (turn % weights.length) 0

/-- The state of the loop behind a number of turns. -/
def layoutAfter (weights : List Nat) : Nat → Layout
  | 0 => {}
  | turn + 1 =>
    { index := (turn % weights.length : Nat)
      threshold := (thresholdAt weights turn : Nat)
      schedule := ((List.range (turn + 1)).filter (takes weights)).map (· % weights.length) }

/-- The positions taken by the turns so far. -/
theorem schedule_layoutAfter (weights : List Nat) (turns : Nat) :
    (layoutAfter weights turns).schedule =
      ((List.range turns).filter (takes weights)).map (· % weights.length) := by
  cases turns with
  | zero => rfl
  | succ turn => rfl

/-- What the turns have taken so far is the beginning of what later turns will have taken. -/
theorem schedule_layoutAfter_prefix (weights : List Nat) {turn later : Nat} (hle : turn ≤ later) :
    (layoutAfter weights turn).schedule <+: (layoutAfter weights later).schedule := by
  obtain ⟨more, rfl⟩ := Nat.exists_eq_add_of_le hle
  rw [schedule_layoutAfter, schedule_layoutAfter, List.range_add, List.filter_append,
    List.map_append]
  exact List.prefix_append _ _

/-- A turn takes one position at most. -/
theorem length_schedule_layoutAfter_succ (weights : List Nat) (turn : Nat) :
    (layoutAfter weights (turn + 1)).schedule.length ≤
      (layoutAfter weights turn).schedule.length + 1 := by
  rw [schedule_layoutAfter, schedule_layoutAfter, List.range_succ, List.filter_append,
    List.map_append, List.length_append, List.length_map]
  have hone : ([turn].filter (takes weights)).length ≤ 1 := List.length_filter_le _ _
  simp only [List.length_map]
  omega

/-- The position that a turn looks at. -/
theorem index_layoutAfter (weights : List Nat) (turn : Nat) :
    ((layoutAfter weights turn).index + 1).tmod weights.length = (turn % weights.length : Nat) := by
  cases turn with
  | zero => simp [layoutAfter]
  | succ k =>
    show (((k % weights.length : Nat) : Int) + 1).tmod weights.length = _
    rw [Int.tmod_eq_emod_of_nonneg (by omega), ← Nat.mod_add_mod]
    norm_cast

/-- Within a round the threshold stays. -/
theorem thresholdAt_of_not_dvd {turn : Nat} (hdvd : ¬ weights.length ∣ turn + 1) :
    thresholdAt weights (turn + 1) = thresholdAt weights turn := by
  rw [thresholdAt, thresholdAt, Nat.succ_div, if_neg hdvd, Nat.add_zero]

section Positive

variable (hne : weights ≠ []) (hpos : ∀ w ∈ weights, 0 < w)
include hne hpos

/-- The rounds reach from the greatest weight down to nothing. -/
theorem rounds_mul_commonStep : rounds weights * commonStep weights = weights.foldl max 0 :=
  Nat.div_mul_cancel (commonStep_dvd (foldl_max_mem hne hpos))

/-- In front of a round that is still to come the threshold falls by one step, and stays
positive. -/
theorem thresholdAt_of_dvd {turn : Nat} (hturn : turn + 1 < weights.length * rounds weights)
    (hdvd : weights.length ∣ turn + 1) :
    thresholdAt weights turn = thresholdAt weights (turn + 1) + commonStep weights ∧
      0 < thresholdAt weights (turn + 1) := by
  have hround : turn / weights.length + 1 < rounds weights := by
    have hlt : (turn + 1) / weights.length < rounds weights :=
      Nat.div_lt_of_lt_mul hturn
    rwa [Nat.succ_div, if_pos hdvd] at hlt
  have hstep := commonStep_pos hne hpos
  obtain ⟨left, hleft⟩ := Nat.exists_eq_add_of_lt hround
  have hgreatest := rounds_mul_commonStep hne hpos
  rw [hleft] at hgreatest
  rw [thresholdAt, thresholdAt, Nat.succ_div, if_pos hdvd, ← hgreatest]
  simp only [Nat.add_mul, Nat.one_mul]
  omega

/-- The threshold of a turn. -/
theorem threshold_turn {turn : Nat} (hturn : turn < weights.length * rounds weights) :
    (if turn % weights.length = 0 then
      if (layoutAfter weights turn).threshold - commonStep weights ≤ 0 then
        ((weights.foldl max 0 : Nat) : Int)
      else (layoutAfter weights turn).threshold - commonStep weights
    else (layoutAfter weights turn).threshold) = (thresholdAt weights turn : Nat) := by
  cases turn with
  | zero => simp [layoutAfter, thresholdAt]
  | succ k =>
    show (if (k + 1) % weights.length = 0 then
      if ((thresholdAt weights k : Nat) : Int) - commonStep weights ≤ 0 then _
      else ((thresholdAt weights k : Nat) : Int) - commonStep weights
      else ((thresholdAt weights k : Nat) : Int)) = _
    by_cases hdvd : weights.length ∣ k + 1
    · obtain ⟨hfalls, hstays⟩ := thresholdAt_of_dvd hne hpos hturn hdvd
      rw [if_pos (Nat.mod_eq_zero_of_dvd hdvd), if_neg (by omega)]
      omega
    · rw [if_neg (fun h => hdvd (Nat.dvd_of_mod_eq_zero h)),
        thresholdAt_of_not_dvd hdvd]

/-- Each turn of the cycle leads from one state to the next. -/
theorem turn_layoutAfter {turn : Nat} (hturn : turn < weights.length * rounds weights) :
    (layoutAfter weights turn).turn (weights.map Int.ofNat) = layoutAfter weights (turn + 1) := by
  have hindex := index_layoutAfter weights turn
  have hthreshold := threshold_turn hne hpos hturn
  rw [Layout.turn, step_natCast, greatest_natCast hne hpos, List.length_map, hindex]
  simp only [Int.natCast_eq_zero, hthreshold]
  have hweight : (weights.map Int.ofNat).getD (turn % weights.length) 0 =
      (weights.getD (turn % weights.length) 0 : Nat) := by
    simpa using List.getD_map weights 0 Int.ofNat
  rw [layoutAfter, List.range_succ, List.filter_append, List.map_append, Int.toNat_natCast, hweight,
    schedule_layoutAfter]
  by_cases htakes : takes weights turn = true
  · have hreaches : thresholdAt weights turn ≤ weights.getD (turn % weights.length) 0 := by
      simpa [takes] using htakes
    rw [if_pos (Int.ofNat_le.2 hreaches)]
    simp [htakes]
  · have hreaches : ¬ thresholdAt weights turn ≤ weights.getD (turn % weights.length) 0 := by
      simpa [takes] using htakes
    rw [if_neg (fun h => hreaches (Int.ofNat_le.1 h))]
    simp [htakes]

end Positive

/-! ### Cycles -/

/-- The thresholds of a cycle, from the greatest weight down. -/
theorem thresholds_eq (hgreatest : rounds weights * commonStep weights = weights.foldl max 0) :
    thresholds weights = (List.range (rounds weights)).map fun round =>
      weights.foldl max 0 - round * commonStep weights := by
  have hrising : thresholds weights =
      ((List.range (rounds weights)).map fun k => (k + 1) * commonStep weights).reverse := rfl
  rw [hrising]
  apply List.ext_getElem
  · simp
  · intro i hi₁ hi₂
    have hi : i < rounds weights := by simpa using hi₂
    obtain ⟨left, hleft⟩ := Nat.exists_eq_add_of_lt hi
    have hrest : i + left + 1 - 1 - i + 1 = left + 1 := by omega
    simp only [List.getElem_reverse, List.getElem_map, List.getElem_range, List.length_map,
      List.length_range]
    rw [← hgreatest, hleft, hrest]
    simp only [Nat.add_mul, Nat.one_mul]
    omega

/-- The positions that reach a threshold, by their weights. -/
theorem reaching_eq (weights : List Nat) (threshold : Nat) :
    reaching weights threshold =
      (List.range weights.length).filter fun i => threshold ≤ weights.getD i 0 := by
  have hentries : weights.zipIdx =
      (List.range weights.length).map fun i => (weights.getD i 0, i) := by
    apply List.ext_getElem
    · simp
    · intro i hi₁ hi₂
      have hi : i < weights.length := by simpa using hi₁
      simp [List.getElem?_eq_getElem hi]
  rw [reaching, hentries, List.filter_map, List.map_map]
  simp [Function.comp_def]

/-- Turns are counted round by round. -/
theorem range_mul (n rounds : Nat) : List.range (n * rounds) =
    (List.range rounds).flatMap fun round => (List.range n).map fun i => n * round + i := by
  induction rounds with
  | zero => simp
  | succ rounds ih => simp [Nat.mul_succ, List.range_add, List.range_succ, ih]

/-- What the turns of a round take are the positions that reach the threshold of the round. -/
theorem map_filter_takes (round : Nat) :
    (((List.range weights.length).map fun i => weights.length * round + i).filter
        (takes weights)).map (· % weights.length) =
      reaching weights (weights.foldl max 0 - round * commonStep weights) := by
  rw [reaching_eq, List.filter_map, List.map_map]
  have hturn : ∀ i ∈ List.range weights.length,
      (takes weights ∘ fun i => weights.length * round + i) i =
        decide (weights.foldl max 0 - round * commonStep weights ≤ weights.getD i 0) := by
    intro i hi
    have hlt := List.mem_range.1 hi
    simp [takes, thresholdAt, Nat.mod_eq_of_lt hlt,
      Nat.mul_add_div (Nat.zero_lt_of_lt hlt), Nat.div_eq_of_lt hlt]
  rw [List.filter_congr hturn]
  apply (List.map_congr_left _).trans (List.map_id _)
  intro i hi
  have hlt := List.mem_range.1 (List.mem_filter.1 hi).1
  simp [Nat.mod_eq_of_lt hlt]

/-! ### Counting -/

/-- How many of the weights reach a threshold. -/
theorem length_reaching (weights : List Nat) (threshold : Nat) :
    (reaching weights threshold).length = weights.countP fun w => threshold ≤ w := by
  conv_rhs => rw [← List.zipIdx_map_fst 0 weights]
  rw [reaching, List.length_map, List.countP_map, List.countP_eq_length_filter]
  rfl

/-- Of the numbers below a bound as many are below another as the lesser of the two. -/
theorem countP_lt_range (bound n : Nat) :
    ((List.range n).countP fun k => k < bound) = min bound n := by
  induction n with
  | zero => simp
  | succ n ih =>
    rw [List.range_succ, List.countP_append, ih]
    simp only [List.countP_singleton, decide_eq_true_eq]
    split <;> omega

section Positive

variable (hne : weights ≠ []) (hpos : ∀ w ∈ weights, 0 < w)
include hne hpos

/-- A weight reaches as many thresholds of a cycle as it has steps. -/
theorem countP_thresholds {w : Nat} (hw : w ∈ weights) :
    ((thresholds weights).countP fun t => t ≤ w) = w / commonStep weights := by
  have hstep := commonStep_pos hne hpos
  have hreached : ∀ k, decide ((k + 1) * commonStep weights ≤ w) =
      decide (k < w / commonStep weights) := by
    intro k
    simp [← Nat.le_div_iff_mul_le hstep]
  have hle : w / commonStep weights ≤ weights.foldl max 0 / commonStep weights :=
    Nat.div_le_div_right (le_foldl_max hw)
  rw [thresholds, List.countP_reverse, List.countP_map]
  simp only [Function.comp_def, hreached]
  rw [countP_lt_range, Nat.min_eq_left hle]

/-- A cycle selects each endpoint as often as its weight has steps. -/
theorem length_cycle : (cycle weights).length = fullLength weights := by
  have hreaching : ((thresholds weights).map fun t => (reaching weights t).length) =
      (thresholds weights).map fun t => weights.countP fun w => t ≤ w := by
    simp only [length_reaching]
  rw [cycle, List.length_flatMap, hreaching, sum_countP_comm fun t w => decide (t ≤ w)]
  apply congrArg List.sum
  apply List.map_congr_left
  intro w hw
  exact countP_thresholds hne hpos hw

/-! ### The end of the loop -/

/-- Behind the last round the schedule is the cycle. -/
theorem schedule_layoutAfter_rounds :
    (layoutAfter weights (weights.length * rounds weights)).schedule = cycle weights := by
  rw [schedule_layoutAfter, range_mul, List.filter_flatMap, List.map_flatMap, cycle,
    thresholds_eq (rounds_mul_commonStep hne hpos), List.flatMap_map]
  apply List.flatMap_congr
  intro round _
  exact map_filter_takes round

/-- The schedule of a balancer is the cycle, if its length is within a word. -/
theorem scheduleOf_eq_cycle (hbounded : (fullLength weights : Int) ≤ Integer.greatest) :
    scheduleOf weights = cycle weights := by
  rw [scheduleOf_eq_take, Int64.toNatClampNeg, toInt_cycleLength hbounded, Int.toNat_natCast,
    ← length_cycle hne hpos, List.take_length]

/-- Before the last round is over there is a turn with which the schedule becomes as long as wanted,
where that is no longer than the cycle. -/
theorem exists_turn {length : Int} (hlength : length ≤ (cycle weights).length) :
    ∃ turns ≤ weights.length * rounds weights,
      (layoutAfter weights turns).schedule = (cycle weights).take length.toNat ∧
      length ≤ (layoutAfter weights turns).schedule.length ∧
      ∀ turn < turns, (layoutAfter weights turn).schedule.length < length := by
  have hend := schedule_layoutAfter_rounds hne hpos
  have hexists : ∃ turns, length ≤ (layoutAfter weights turns).schedule.length :=
    ⟨weights.length * rounds weights, by rwa [hend]⟩
  have hle : Nat.find hexists ≤ weights.length * rounds weights :=
    Nat.find_le (by rwa [hend])
  have hbefore : ∀ turn < Nat.find hexists,
      (layoutAfter weights turn).schedule.length < length :=
    fun turn hturn => not_le.1 (Nat.find_min hexists hturn)
  refine ⟨Nat.find hexists, hle, ?_, Nat.find_spec hexists, hbefore⟩
  have hprefix := schedule_layoutAfter_prefix weights hle
  rw [hend] at hprefix
  have hreached : (layoutAfter weights (Nat.find hexists)).schedule.length = length.toNat := by
    have hspec := Nat.find_spec hexists
    cases hturns : Nat.find hexists with
    | zero =>
      rw [hturns] at hspec
      simp only [layoutAfter, List.length_nil] at hspec ⊢
      omega
    | succ turn =>
      rw [hturns] at hspec
      have hshort := hbefore turn (by omega)
      have hone := length_schedule_layoutAfter_succ weights turn
      omega
  rw [← hreached]
  exact List.prefix_iff_eq_take.1 hprefix

end Positive

/-- In a word no length is more than it is. -/
theorem toInt_cycleLength_le (weights : List Nat) :
    (cycleLength weights).toInt ≤ fullLength weights := by
  by_cases hbounded : (fullLength weights : Int) ≤ Integer.greatest
  · exact (toInt_cycleLength hbounded).le
  · have hrange := Integer.toInt_mem_range (cycleLength weights)
    omega

/-- Over positive weights the loop ends, and its schedule is that of the balancer. -/
theorem ends_scheduleOf (hpos : ∀ w ∈ weights, 0 < w) :
    ∃ last, Layout.Ends (weights.map Int.ofNat) {} last ∧ last.schedule = scheduleOf weights := by
  by_cases hne : weights = []
  · subst hne
    refine ⟨{}, .done ?_, rfl⟩
    exact Int.le_refl 0
  · have hlength : (cycleLength weights).toInt ≤ (cycle weights).length := by
      rw [length_cycle hne hpos]
      exact toInt_cycleLength_le weights
    obtain ⟨turns, hle, hschedule, hfull, hshort⟩ := exists_turn hne hpos hlength
    refine ⟨layoutAfter weights turns, ?_, ?_⟩
    · have hruns : ∀ left turn, turn + left = turns →
          Layout.Ends (weights.map Int.ofNat) (layoutAfter weights turn)
            (layoutAfter weights turns) := by
        intro left
        induction left with
        | zero =>
          rintro turn rfl
          apply Layout.Ends.done
          rwa [wordLength_natCast]
        | succ left ih =>
          intro turn hturn
          apply Layout.Ends.turn
          · rw [wordLength_natCast]
            exact hshort turn (by omega)
          · rw [turn_layoutAfter hne hpos (by omega)]
            exact ih (turn + 1) (by omega)
      exact hruns _ 0 (Nat.zero_add _)
    · rw [hschedule, scheduleOf_eq_take, Int64.toNatClampNeg]

end ShardRouting.RoundRobin
