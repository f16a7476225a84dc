import Mathlib
import ShardRouting.Proofs.CallLogs
import ShardRouting.Proofs.Executions

/-!
# Answers and the order of completion

The tasks of a statement run side by side, a limited number at a time. Any of them may go on next,
and anything else may happen to the world in between; still there is an end to it, at which every
task has ended, and the answer is read off what each of them came to, in the order of the plan.

* `Execution.Runs`: the tasks go on in any order under a limit.
* `Execution.Runs.le_totalBound` and `Execution.exists_mayGoOn`: such a run has an end, and it does
  not stop before every task has ended.
* `Execution.Logs` and `Execution.Runs.exists_logs`: the calls that are logged in such a run.
* `Schedule.Orderly`: what a schedule keeps, so that it is such a run and comes to its end.
* `Executor.answer_of_outcomes`: what an answer is made from.
-/

namespace ShardRouting

/-! ### Tasks under way -/

namespace Task

variable {t : Task} {w : World} {kind : StatementKind} {retry : Nat} {r : Task × World}

/-- Whether a task has begun and not ended. -/
def isUnderWay (t : Task) : Bool :=
  match t.phase with
  | .opening .. | .calling .. => true
  | .queued | .finished _ => false

theorem phase_cases (t : Task) :
    t.phase = .queued ∨ t.isUnderWay = true ∨ t.isFinished = true := by
  cases hp : t.phase with
  | queued => exact Or.inl rfl
  | opening | calling => exact Or.inr (Or.inl (by rw [isUnderWay, hp]))
  | finished => exact Or.inr (Or.inr (by rw [isFinished, hp]))

theorem isFinished_of_queued (h : t.phase = .queued) : t.isFinished = false := by
  rw [isFinished, h]

theorem isFinished_of_isUnderWay (h : t.isUnderWay = true) : t.isFinished = false := by
  unfold isUnderWay at h
  unfold isFinished
  split at h
  · next hp => rw [hp]
  · next hp => rw [hp]
  · cases h
  · cases h

/-- A task waits exactly while it is under way. -/
theorem isSome_delay? (t : Task) (w : World) : (t.delay? w).isSome = t.isUnderWay := by
  unfold delay? isUnderWay
  cases t.phase <;> rfl

theorem isUnderWay_or_isFinished_begin (t : Task) (w : World) (loan : Loan) :
    ({ t with phase := begin w t.work loan } : Task).isUnderWay = true ∨
      ({ t with phase := begin w t.work loan } : Task).isFinished = true := by
  unfold begin isUnderWay isFinished
  cases t.work.calls w.style
  · exact Or.inr rfl
  · exact Or.inl rfl

/-- A task that has taken a step has begun. -/
theorem Goes.begun (h : t.Goes w kind retry r) :
    r.1.isUnderWay = true ∨ r.1.isFinished = true := by
  cases h with
  | rests ended => exact Or.inr ended
  | waits | calls => exact Or.inl rfl
  | fails | succeeds | refused | breaks => exact Or.inr rfl
  | takes | opens => exact isUnderWay_or_isFinished_begin t _ _

end Task

namespace Execution

variable {x y : Execution} {i j limit n : Nat} {t : Task} {tasks : List Task}

/-- The tasks that are under way, by their places. -/
def underWay (x : Execution) : List Nat :=
  (List.range x.tasks.length).filter fun i => (x.tasks[i]?).any Task.isUnderWay

theorem mem_underWay : i ∈ x.underWay ↔ ∃ t, x.tasks[i]? = some t ∧ t.isUnderWay = true := by
  rw [underWay, List.mem_filter, List.mem_range, Option.any_eq_true]
  constructor
  · exact fun h => h.2
  · rintro ⟨t, hi, hway⟩
    exact ⟨(List.getElem?_eq_some_iff.1 hi).1, t, hi, hway⟩

/-- A task may go on if it is under way, or has not begun and there is room for one more. -/
def MayGoOn (limit : Nat) (x : Execution) (i : Nat) : Prop :=
  ∃ t, x.tasks[i]? = some t ∧
    (t.isUnderWay = true ∨ t.phase = .queued ∧ x.underWay.length < limit)

/-- A run of tasks under a limit with a number of steps: any task that may goes on by a step, and
between two steps anything else may happen to the world. -/
inductive Runs (limit : Nat) (x : Execution) : Nat → Execution → Prop where
  /-- Nothing has happened yet. -/
  | refl : Runs limit x 0 x
  /-- A task goes on. -/
  | goOn {n : Nat} {y : Execution} (run : Runs limit x n y) (i : Nat) (may : y.MayGoOn limit i) :
      Runs limit x (n + 1) (y.step i)
  /-- Something else happens. -/
  | others {n : Nat} {y : Execution} (run : Runs limit x n y) (w : World)
      (style : w.style = y.world.style) : Runs limit x n { y with world := w }

theorem Runs.under (h : Runs limit x n y) (hx : Under tasks x) : Under tasks y := by
  induction h with
  | refl => exact hx
  | goOn run i may ih => exact ih.step i
  | others run w style ih => exact ⟨ih.origin, ih.ends⟩

/-! ### Runs end -/

/-- How many steps the tasks can take at most. -/
def stepsLeft (x : Execution) : Nat :=
  (x.tasks.map (Task.stepsLeft x.world.style x.retry)).sum

/-- Every step of a task that may go on brings the end nearer. -/
theorem stepsLeft_step (hi : x.tasks[i]? = some t) (hend : t.isFinished = false) :
    (x.step i).stepsLeft < x.stepsLeft := by
  have hgoes := t.goes_step x.world x.kind x.retry
  have hlt := hgoes.stepsLeft_lt hend
  have hsum := sum_map_set hi (Task.stepsLeft x.world.style x.retry)
    (t.step x.world x.kind x.retry).1
  rw [step_of_getElem? hi]
  simp only [stepsLeft, hgoes.style]
  omega

theorem MayGoOn.isFinished (h : x.MayGoOn limit i) :
    ∃ t, x.tasks[i]? = some t ∧ t.isFinished = false := by
  obtain ⟨t, hi, hway | ⟨hqueued, -⟩⟩ := h
  · exact ⟨t, hi, Task.isFinished_of_isUnderWay hway⟩
  · exact ⟨t, hi, Task.isFinished_of_queued hqueued⟩

theorem Runs.add_stepsLeft_le (h : Runs limit x n y) : n + y.stepsLeft ≤ x.stepsLeft := by
  induction h with
  | refl => exact Nat.le_of_eq (Nat.zero_add _)
  | goOn run i may ih =>
    obtain ⟨t, hi, hend⟩ := may.isFinished
    have hlt := stepsLeft_step hi hend
    omega
  | others run w style ih =>
    simpa only [stepsLeft, style] using ih

/-- Tasks that have not begun can take no more steps than are allowed for. -/
theorem stepsLeft_le_totalBound (hqueued : ∀ t ∈ x.tasks, t.phase = .queued) :
    x.stepsLeft ≤ x.totalBound := by
  have hle : ∀ t ∈ x.tasks, t.stepsLeft x.world.style x.retry ≤ x.stepBound t := by
    intro t ht
    simp only [Task.stepsLeft, stepBound, hqueued t ht]
    omega
  exact List.sum_le_sum hle

/-- A run of tasks has an end. -/
theorem Runs.le_totalBound (h : Runs limit x n y) (hqueued : ∀ t ∈ x.tasks, t.phase = .queued) :
    n ≤ x.totalBound :=
  (Nat.le_of_add_right_le h.add_stepsLeft_le).trans (stepsLeft_le_totalBound hqueued)

/-- Before its end there is a task that may go on. -/
theorem exists_mayGoOn (hlimit : 0 < limit) (hend : x.isFinished = false) :
    ∃ i, x.MayGoOn limit i := by
  obtain ⟨t, ht, hnot⟩ := List.all_eq_false.1 hend
  obtain ⟨i, hi⟩ := List.mem_iff_getElem?.1 ht
  rcases t.phase_cases with hqueued | hway | hfinished
  · cases hway : x.underWay with
    | nil =>
      refine ⟨i, t, hi, Or.inr ⟨hqueued, ?_⟩⟩
      rwa [hway]
    | cons j rest =>
      obtain ⟨u, hj, hu⟩ := mem_underWay.1 (hway ▸ List.mem_cons_self)
      exact ⟨j, u, hj, Or.inl hu⟩
  · exact ⟨i, t, hi, Or.inl hway⟩
  · exact absurd hfinished hnot

/-! ### Calls in runs -/

/-- A run with the calls that are logged at its steps, each with the place of its task. -/
inductive Logs (limit : Nat) (x : Execution) : Nat → Execution → List (Nat × Call) → Prop where
  /-- Nothing has happened yet. -/
  | refl : Logs limit x 0 x []
  /-- A task goes on, and some calls are logged. -/
  | goOn {n : Nat} {y : Execution} {made : List (Nat × Call)} {calls : List Call}
      (run : Logs limit x n y made) (i : Nat) (may : y.MayGoOn limit i)
      (logged : (y.step i).world.calls = y.world.calls ++ calls) :
      Logs limit x (n + 1) (y.step i) (made ++ calls.map (Prod.mk i))
  /-- Something else happens. -/
  | others {n : Nat} {y : Execution} {made : List (Nat × Call)} (run : Logs limit x n y made)
      (w : World) (style : w.style = y.world.style) : Logs limit x n { y with world := w } made

/-- The calls that are logged in a run are those of its tasks. -/
theorem Runs.exists_logs (h : Runs limit x n y) (hqueued : ∀ t ∈ x.tasks, t.phase = .queued) :
    ∃ made, Logs limit x n y made ∧ y.Asked made := by
  induction h with
  | refl => exact ⟨[], .refl, asked_nil hqueued⟩
  | goOn run i may ih =>
    obtain ⟨made, hlogs, hasked⟩ := ih
    obtain ⟨calls, hcalls, hasked⟩ := asked_step hasked i
    exact ⟨_, hlogs.goOn i may hcalls, hasked⟩
  | others run w style ih =>
    obtain ⟨made, hlogs, hasked⟩ := ih
    refine ⟨made, hlogs.others w style, fun i t hi => ?_⟩
    show t.Asked w.style _
    rw [style]
    exact hasked i t hi

/-! ### One task goes on -/

theorem getElem?_step_ne (h : j ≠ i) : (x.step i).tasks[j]? = x.tasks[j]? := by
  cases hi : x.tasks[i]? with
  | none => rw [step, hi]
  | some t =>
    rw [step_of_getElem? hi]
    exact List.getElem?_set_ne h.symm

theorem exists_begun_step (hi : x.tasks[i]? = some t) :
    ∃ t', (x.step i).tasks[i]? = some t' ∧ (t'.isUnderWay = true ∨ t'.isFinished = true) := by
  refine ⟨_, ?_, (t.goes_step x.world x.kind x.retry).begun⟩
  rw [step_of_getElem? hi]
  exact List.getElem?_set_self (List.getElem?_eq_some_iff.1 hi).1

/-- One task has gone on by a step or more, and no other has. -/
structure Advances (limit : Nat) (x : Execution) (n : Nat) (y : Execution) (i : Nat)
    (z : Execution) : Prop where
  /-- The run has become longer. -/
  runs : ∃ m, n < m ∧ Runs limit x m z
  /-- The other tasks are as they were. -/
  others : ∀ j, j ≠ i → z.tasks[j]? = y.tasks[j]?
  /-- The task has begun. -/
  begun : ∃ t, z.tasks[i]? = some t ∧ (t.isUnderWay = true ∨ t.isFinished = true)

theorem advances_step {y : Execution} (h : Runs limit x n y) (may : y.MayGoOn limit i) :
    Advances limit x n y i (y.step i) := by
  obtain ⟨t, hi, -⟩ := may.isFinished
  exact ⟨⟨n + 1, Nat.lt_succ_self n, h.goOn i may⟩, fun j hj => getElem?_step_ne hj,
    exists_begun_step hi⟩

theorem Advances.trans {y z z' : Execution} {m : Nat} (h : Advances limit x n y i z)
    (hle : n ≤ m) (h' : Advances limit x m z i z') : Advances limit x n y i z' := by
  obtain ⟨k, hlt, hruns⟩ := h'.runs
  exact ⟨⟨k, Nat.lt_of_le_of_lt hle hlt, hruns⟩,
    fun j hj => (h'.others j hj).trans (h.others j hj), h'.begun⟩

theorem isSome_delay?_iff : (x.delay? i).isSome = true ↔ i ∈ x.underWay := by
  rw [mem_underWay, delay?]
  cases x.tasks[i]? with
  | none =>
    constructor
    · intro h
      cases h
    · rintro ⟨t, h, -⟩
      cases h
  | some t =>
    rw [Option.bind_some, Task.isSome_delay?]
    constructor
    · intro h
      exact ⟨t, rfl, h⟩
    · rintro ⟨u, hu, h⟩
      cases hu
      exact h

end Execution

/-! ### Schedules come to an end -/

namespace Schedule

open Execution

variable {limit n i : Nat} {x : Execution} {s : Schedule}

/-- A task goes on until it waits or has ended. -/
theorem advances_advance {y : Execution} (h : Runs limit x n y) (may : y.MayGoOn limit i)
    (fuel : Nat) : Advances limit x n y i (advance y i (fuel + 1)) := by
  induction fuel generalizing y n with
  | zero =>
    have hstep := advances_step h may
    unfold advance
    simp only
    split <;> exact hstep
  | succ fuel ih =>
    have hstep := advances_step h may
    unfold advance
    simp only
    split
    · next hdelay =>
      -- the task does not really wait, and goes on at once
      obtain ⟨m, hlt, hruns⟩ := hstep.runs
      have hway : i ∈ (y.step i).underWay := isSome_delay?_iff.1 (hdelay ▸ rfl)
      obtain ⟨t, hi, hway⟩ := mem_underWay.1 hway
      exact hstep.trans hlt.le (ih hruns ⟨t, hi, Or.inl hway⟩)
    · exact hstep

/-- The tasks that a schedule lists: those that go on now, those that wait, and those that are not
let in. -/
def listed (s : Schedule) : List Nat :=
  s.ready ++ s.waits.map Prod.snd ++ s.queue

/-- What a schedule keeps: it lists every task that has not ended, once; those that are not let in
have not begun, and are there only if there is no room for them. -/
structure Orderly (limit : Nat) (s : Schedule) : Prop where
  /-- No task is listed twice. -/
  nodup : s.listed.Nodup
  /-- What goes on now has not ended. -/
  ready : ∀ i ∈ s.ready, ∃ t, s.execution.tasks[i]? = some t ∧ t.isFinished = false
  /-- What waits is under way. -/
  waits : ∀ i ∈ s.waits.map Prod.snd, i ∈ s.execution.underWay
  /-- What is not let in has not begun. -/
  queue : ∀ i ∈ s.queue, ∃ t, s.execution.tasks[i]? = some t ∧ t.phase = .queued
  /-- What has not ended is listed. -/
  complete : ∀ i t, s.execution.tasks[i]? = some t → t.isFinished = false → i ∈ s.listed
  /-- No more tasks are let in than the limit allows. -/
  room : s.ready.length + s.waits.length ≤ limit
  /-- As many are let in as there may be. -/
  full : s.queue ≠ [] → limit ≤ s.ready.length + s.waits.length

theorem orderly_start (hqueued : ∀ t ∈ x.tasks, t.phase = .queued) (limit : Nat) :
    Orderly limit (start x limit) := by
  have hlisted : (start x limit).listed = List.range x.tasks.length := by
    rw [listed, start, List.map_nil, List.append_nil, List.take_append_drop]
  have hget : ∀ i ∈ List.range x.tasks.length, ∃ t, x.tasks[i]? = some t ∧ t.phase = .queued := by
    intro i hi
    have hlt := List.mem_range.1 hi
    exact ⟨_, List.getElem?_eq_getElem hlt, hqueued _ (List.getElem_mem hlt)⟩
  constructor
  case nodup =>
    rw [hlisted]
    exact List.nodup_range
  case ready =>
    intro i hi
    obtain ⟨t, ht, hphase⟩ := hget i (List.mem_of_mem_take hi)
    exact ⟨t, ht, Task.isFinished_of_queued hphase⟩
  case waits =>
    intro i hi
    cases hi
  case queue => exact fun i hi => hget i (List.mem_of_mem_drop hi)
  case complete =>
    intro i t hi _
    rw [hlisted]
    exact List.mem_range.2 (List.getElem?_eq_some_iff.1 hi).1
  case room => exact List.length_take_le limit _
  case full =>
    intro hne
    have hlt : 0 < ((List.range x.tasks.length).drop limit).length :=
      List.length_pos_of_ne_nil hne
    show limit ≤ ((List.range x.tasks.length).take limit).length
    rw [List.length_drop] at hlt
    rw [List.length_take]
    omega

variable {ready : List Nat}

/-- The first task that goes on now may do so. -/
theorem Orderly.mayGoOn (h : Orderly limit s) (hready : s.ready = i :: ready) :
    s.execution.MayGoOn limit i := by
  obtain ⟨t, hi, hend⟩ := h.ready i (hready ▸ List.mem_cons_self)
  refine ⟨t, hi, ?_⟩
  rcases t.phase_cases with hqueued | hway | hfinished
  · -- what is under way is listed behind it, or waits
    have hsub : s.execution.underWay ⊆ ready ++ s.waits.map Prod.snd := by
      intro j hj
      obtain ⟨u, hu, hway⟩ := mem_underWay.1 hj
      have hlisted := h.complete j u hu (Task.isFinished_of_isUnderWay hway)
      have hnot : j ∉ s.queue := by
        intro hqueue
        obtain ⟨v, hv, hphase⟩ := h.queue j hqueue
        obtain rfl := Option.some.inj (hu.symm.trans hv)
        rw [Task.isUnderWay, hphase] at hway
        cases hway
      have hne : j ≠ i := by
        rintro rfl
        obtain rfl := Option.some.inj (hu.symm.trans hi)
        rw [Task.isUnderWay, hqueued] at hway
        cases hway
      rw [listed, hready] at hlisted
      simpa [hne, hnot] using hlisted
    have hnodup : s.execution.underWay.Nodup := List.nodup_range.filter _
    have hlen := (hnodup.subperm hsub).length_le
    have hroom := h.room
    rw [hready, List.length_cons] at hroom
    rw [List.length_append, List.length_map] at hlen
    exact Or.inr ⟨hqueued, by omega⟩
  · exact Or.inl hway
  · rw [hend] at hfinished
    cases hfinished

variable {y : Execution}

/-- A schedule whose first task has begun, while the others are as before. -/
structure Begun (s : Schedule) (i : Nat) (ready : List Nat) (y : Execution) : Prop where
  /-- The task was the first of those that go on. -/
  ready : s.ready = i :: ready
  /-- The others are as before. -/
  others : ∀ j, j ≠ i → y.tasks[j]? = s.execution.tasks[j]?

/-- The tasks that are listed behind the first one are others. -/
theorem Begun.same (hb : Begun s i ready y) (h : Orderly limit s) {j : Nat}
    (hj : j ∈ ready ++ s.waits.map Prod.snd ++ s.queue) :
    y.tasks[j]? = s.execution.tasks[j]? := by
  apply hb.others
  rintro rfl
  have hnodup := h.nodup
  rw [listed, hb.ready, List.cons_append, List.cons_append, List.nodup_cons] at hnodup
  exact hnodup.1 hj

/-- What is listed behind the first task is in order, whatever becomes of that. -/
structure Rest (s : Schedule) (i : Nat) (behind : List Nat) (y : Execution) : Prop where
  /-- What goes on now has not ended. -/
  ready : ∀ j ∈ behind, ∃ t, y.tasks[j]? = some t ∧ t.isFinished = false
  /-- What waits is under way. -/
  waits : ∀ j ∈ s.waits.map Prod.snd, j ∈ y.underWay
  /-- What is not let in has not begun. -/
  queue : ∀ j ∈ s.queue, ∃ t, y.tasks[j]? = some t ∧ t.phase = .queued
  /-- What has not ended is listed. -/
  complete : ∀ j t, y.tasks[j]? = some t → t.isFinished = false → j ≠ i →
    j ∈ behind ++ s.waits.map Prod.snd ++ s.queue

theorem Begun.rest (hb : Begun s i ready y) (h : Orderly limit s) : s.Rest i ready y := by
  have hsame := fun j => hb.same h (j := j)
  simp only [List.mem_append] at hsame
  constructor
  case ready =>
    intro j hj
    rw [hsame j (Or.inl (Or.inl hj))]
    exact h.ready j (hb.ready ▸ List.mem_cons_of_mem _ hj)
  case waits =>
    intro j hj
    have hold := h.waits j hj
    rw [mem_underWay] at hold ⊢
    rwa [hsame j (Or.inl (Or.inr hj))]
  case queue =>
    intro j hj
    rw [hsame j (Or.inr hj)]
    exact h.queue j hj
  case complete =>
    intro j t hj hend hne
    have hlisted := h.complete j t (hb.others j hne ▸ hj) hend
    rw [listed, hb.ready, List.cons_append, List.cons_append, List.mem_cons] at hlisted
    exact hlisted.resolve_left hne

/-- A task that has to wait does so behind the others. -/
theorem Orderly.wait (h : Orderly limit s) (hb : Begun s i ready y) (hway : i ∈ y.underWay)
    (time : Nat) :
    Orderly limit { s with execution := y, ready, waits := s.waits ++ [(time, i)] } := by
  have hrest := hb.rest h
  have hnodup := h.nodup
  have hroom := h.room
  have hfull := h.full
  rw [listed, hb.ready] at hnodup
  rw [hb.ready, List.length_cons] at hroom hfull
  have hperm : (i :: ready ++ s.waits.map Prod.snd ++ s.queue).Perm
      (ready ++ (s.waits ++ [(time, i)]).map Prod.snd ++ s.queue) := by
    rw [List.perm_iff_count]
    intro a
    simp only [List.map_append, List.map_cons, List.map_nil, List.count_append, List.count_cons,
      List.count_nil]
    omega
  constructor
  case nodup => exact hperm.nodup_iff.1 hnodup
  case ready => exact hrest.ready
  case waits =>
    intro j hj
    rw [List.map_append, List.mem_append, List.map_singleton, List.mem_singleton] at hj
    rcases hj with hj | rfl
    · exact hrest.waits j hj
    · exact hway
  case queue => exact hrest.queue
  case complete =>
    intro j t hj hend
    apply hperm.mem_iff.1
    by_cases hne : j = i
    · rw [hne]
      exact List.mem_cons_self
    · exact List.mem_cons_of_mem _ (hrest.complete j t hj hend hne)
  case room =>
    show ready.length + (s.waits ++ [(time, i)]).length ≤ limit
    rw [List.length_append, List.length_singleton]
    omega
  case full =>
    intro hne
    have hold := hfull hne
    show limit ≤ ready.length + (s.waits ++ [(time, i)]).length
    rw [List.length_append, List.length_singleton]
    omega

/-- A task that has ended makes room for the next one. -/
theorem Orderly.leave (h : Orderly limit s) (hb : Begun s i ready y)
    (hend : ∀ t, y.tasks[i]? = some t → t.isFinished = true) :
    Orderly limit { s with
      execution := y, ready := ready ++ s.queue.take 1, queue := s.queue.drop 1 } := by
  have hrest := hb.rest h
  have hnodup := h.nodup
  have hroom := h.room
  have hfull := h.full
  rw [listed, hb.ready] at hnodup
  rw [hb.ready, List.length_cons] at hroom hfull
  have hperm : (ready ++ s.waits.map Prod.snd ++ s.queue).Perm
      (ready ++ s.queue.take 1 ++ s.waits.map Prod.snd ++ s.queue.drop 1) := by
    rw [List.perm_iff_count]
    intro a
    have hcount := congrArg (List.count a) (List.take_append_drop 1 s.queue)
    simp only [List.count_append] at hcount ⊢
    omega
  constructor
  case nodup => exact hperm.nodup_iff.1 (List.nodup_cons.1 hnodup).2
  case ready =>
    intro j hj
    rcases List.mem_append.1 hj with hj | hj
    · exact hrest.ready j hj
    · obtain ⟨t, ht, hphase⟩ := hrest.queue j (List.mem_of_mem_take hj)
      exact ⟨t, ht, Task.isFinished_of_queued hphase⟩
  case waits => exact hrest.waits
  case queue => exact fun j hj => hrest.queue j (List.mem_of_mem_drop hj)
  case complete =>
    intro j t hj hnot
    have hne : j ≠ i := by
      rintro rfl
      rw [hend t hj] at hnot
      cases hnot
    exact hperm.mem_iff.1 (hrest.complete j t hj hnot hne)
  case room =>
    show (ready ++ s.queue.take 1).length + s.waits.length ≤ limit
    rw [List.length_append, List.length_take]
    omega
  case full =>
    intro hne
    have hlt : 0 < (s.queue.drop 1).length := List.length_pos_of_ne_nil hne
    have hold := hfull fun hnil => by simp [hnil] at hlt
    show limit ≤ (ready ++ s.queue.take 1).length + s.waits.length
    rw [List.length_drop] at hlt
    rw [List.length_append, List.length_take]
    omega

/-- A task that goes on leaves a schedule orderly. -/
theorem Orderly.turn (h : Orderly limit s) (hready : s.ready = i :: ready)
    (hruns : Runs limit x n s.execution) :
    Orderly limit (s.turn i ready) ∧ ∃ m, n < m ∧ Runs limit x m (s.turn i ready).execution := by
  obtain ⟨hruns', hothers, t, hi, hbegun⟩ :=
    advances_advance hruns (h.mayGoOn hready) s.execution.totalBound
  have hb : Begun s i ready (advance s.execution i (s.execution.totalBound + 1)) :=
    ⟨hready, hothers⟩
  have hdelay : ((advance s.execution i (s.execution.totalBound + 1)).delay? i).isSome =
      t.isUnderWay := by
    rw [delay?, hi, Option.bind_some, Task.isSome_delay?]
  unfold Schedule.turn
  simp only
  split
  · next d hsome => exact ⟨h.wait hb (isSome_delay?_iff.1 (hsome ▸ rfl)) _, hruns'⟩
  · next hnone =>
    refine ⟨h.leave hb fun u hu => ?_, hruns'⟩
    obtain rfl := Option.some.inj (hi.symm.trans hu)
    rw [hnone] at hdelay
    exact hbegun.resolve_left fun hway => by rw [hway] at hdelay; cases hdelay

/-- Moving the clock leaves a schedule orderly. -/
theorem Orderly.moveTo (h : Orderly limit s) (hready : s.ready = []) (time : Nat) :
    Orderly limit (s.moveTo time) := by
  have hperm : (s.moveTo time).listed.Perm s.listed := by
    rw [listed, listed, hready, Schedule.moveTo]
    simp only [List.nil_append, ← List.map_append]
    refine List.Perm.append_right _ (List.Perm.map _ ?_)
    simpa only [decide_not] using
      List.filter_append_perm (fun w : Nat × Nat => decide (w.1 ≤ time)) s.waits
  have hlength : (s.moveTo time).ready.length + (s.moveTo time).waits.length =
      s.ready.length + s.waits.length := by
    have hlen := hperm.length_eq
    simp only [listed, List.length_append, List.length_map] at hlen
    exact Nat.add_right_cancel hlen
  constructor
  case nodup => exact hperm.nodup_iff.2 h.nodup
  case ready =>
    intro i hi
    obtain ⟨wait, hwait, rfl⟩ := List.mem_map.1 hi
    obtain ⟨t, ht, hway⟩ := mem_underWay.1
      (h.waits _ (List.mem_map_of_mem (List.mem_filter.1 hwait).1))
    exact ⟨t, ht, Task.isFinished_of_isUnderWay hway⟩
  case waits =>
    intro i hi
    obtain ⟨wait, hwait, rfl⟩ := List.mem_map.1 hi
    exact h.waits _ (List.mem_map_of_mem (List.mem_filter.1 hwait).1)
  case queue => exact h.queue
  case complete => exact fun i t hi hend => hperm.mem_iff.2 (h.complete i t hi hend)
  case room => exact hlength ▸ h.room
  case full => exact fun hne => hlength ▸ h.full hne

/-- When nothing goes on and nothing waits, all tasks have ended. -/
theorem Orderly.isFinished (h : Orderly limit s) (hlimit : 0 < limit) (hready : s.ready = [])
    (hnext : s.nextTime? = none) : s.execution.isFinished = true := by
  have hwaits : s.waits = [] := by
    rwa [nextTime?, List.min?_eq_none_iff, List.map_eq_nil_iff] at hnext
  have hqueue : s.queue = [] := by
    by_contra hne
    have hfull := h.full hne
    rw [hready, hwaits] at hfull
    exact absurd hlimit (Nat.not_lt.2 hfull)
  have hlisted : s.listed = [] := by rw [listed, hready, hwaits, hqueue]; rfl
  apply List.all_eq_true.2
  intro t ht
  obtain ⟨i, hi⟩ := List.mem_iff_getElem?.1 ht
  by_contra hend
  have hmem := h.complete i t hi (Bool.not_eq_true _ ▸ hend)
  rw [hlisted] at hmem
  cases hmem

/-- The clock moves to the end of a wait. -/
theorem ready_moveTo_ne_nil {time : Nat} (hnext : s.nextTime? = some time) :
    (s.moveTo time).ready ≠ [] := by
  obtain ⟨wait, hwait, rfl⟩ := List.mem_map.1 (List.min?_mem hnext)
  have hmem : wait ∈ s.waits.filter fun w => w.1 ≤ wait.1 :=
    List.mem_filter.2 ⟨hwait, decide_eq_true (Nat.le_refl _)⟩
  exact List.ne_nil_of_mem (List.mem_map_of_mem hmem)

/-- Without a deadline an orderly schedule runs until all tasks have ended: there is a step in every
turn, and the clock is not moved twice without a turn in between. -/
theorem runs_runFor (hlimit : 0 < limit) (fuel : Nat) (h : Orderly limit s)
    (hruns : Runs limit x n s.execution)
    (hfuel : 2 * x.stepsLeft + (if s.ready = [] then 1 else 0) < fuel + 2 * n) :
    ∃ m, Runs limit x m (runFor none fuel s).execution ∧
      (runFor none fuel s).execution.isFinished = true := by
  induction fuel generalizing s n with
  | zero =>
    have hle := hruns.add_stepsLeft_le
    omega
  | succ fuel ih =>
    unfold runFor
    simp only [Option.all_none, Bool.not_true, Bool.false_eq_true, if_false, if_true]
    cases hready : s.ready with
    | cons i ready =>
      obtain ⟨hturn, m, hlt, hruns'⟩ := h.turn hready hruns
      refine ih hturn hruns' ?_
      split <;> omega
    | nil =>
      rw [if_pos hready] at hfuel
      cases hnext : s.nextTime? with
      | none => exact ⟨n, hruns, h.isFinished hlimit hready hnext⟩
      | some time =>
        refine ih (h.moveTo hready time) hruns ?_
        rw [if_neg (ready_moveTo_ne_nil hnext)]
        omega

/-- Without a deadline a schedule runs its tasks to their ends. -/
theorem runs_run (hlimit : 0 < limit) (hqueued : ∀ t ∈ x.tasks, t.phase = .queued) :
    ∃ n, Runs limit x n (run x limit none) ∧ (run x limit none).isFinished = true := by
  refine runs_runFor hlimit _ (orderly_start hqueued limit) .refl ?_
  have hle := stepsLeft_le_totalBound hqueued
  split <;> omega

end Schedule

/-! ### Rows of a cursor -/

namespace Cursor

/-- Rows up to a limit, where zero means no limit. -/
def upTo (maxRows : Nat) (rows : List (List Value)) : List (List Value) :=
  if maxRows = 0 then rows else rows.take maxRows

/-- The rows that a cursor will give. -/
def left (c : Cursor) : List (List Value) :=
  if c.maxRows = 0 then c.remaining else c.remaining.take (c.maxRows - c.fetched)

/-- A cursor gives the first of the rows that are left for it, or none and stays at the end. -/
theorem next_cases (c : Cursor) :
    (c.left = [] ∧ c.next.1 = none ∧ c.next.2.left = [] ∧ c.next.2.fetched = c.fetched) ∨
      ∃ row, c.next.1 = some row ∧ c.left = row :: c.next.2.left ∧
        c.next.2.fetched = c.fetched + 1 := by
  by_cases hlimit : c.maxRows ≠ 0 ∧ c.maxRows ≤ c.fetched
  · have hleft : c.left = [] := by
      rw [left, if_neg hlimit.1, Nat.sub_eq_zero_of_le hlimit.2, List.take_zero]
    rw [next, if_pos hlimit]
    exact Or.inl ⟨hleft, rfl, hleft, rfl⟩
  · rw [next, if_neg hlimit]
    rcases popRow_eq c.pending with ⟨hpop, hnil⟩ | ⟨row, rest, hpop, hcons⟩
    · refine Or.inl ?_
      simp only [hpop, left, remaining, hnil, List.flatten_nil, List.take_nil, ite_self, true_and]
    · refine Or.inr ⟨row, ?_⟩
      simp only [hpop, left, remaining, hcons, true_and, and_true]
      by_cases hzero : c.maxRows = 0
      · rw [if_pos hzero, if_pos hzero]
      · have hroom : c.maxRows - c.fetched = c.maxRows - (c.fetched + 1) + 1 := by omega
        rw [if_neg hzero, if_neg hzero, hroom, List.take_succ_cons]

theorem fst_drain (c : Cursor) (fuel : Nat) (hfuel : c.left.length < fuel) :
    (c.drain fuel).1 = c.left := by
  induction fuel generalizing c with
  | zero => exact absurd hfuel (Nat.not_lt_zero _)
  | succ fuel ih =>
    rw [drain]
    rcases c.next_cases with ⟨hleft, hnone, -⟩ | ⟨row, hrow, hleft, -⟩
    · rw [show c.next = (none, c.next.2) from Prod.ext hnone rfl, hleft]
    · rw [hleft, List.length_cons] at hfuel
      have hrest := ih c.next.2 (Nat.lt_of_succ_lt_succ hfuel)
      rw [show c.next = (some row, c.next.2) from Prod.ext hrow rfl, hleft, ← hrest]

theorem left_ofResults (results : List ResultSet) (maxRows : Nat) :
    (ofResults results maxRows).left = upTo maxRows (results.flatMap ResultSet.rows) := by
  rw [List.flatMap_def]
  rfl

/-- A cursor gives the rows of all results, one behind the other, up to its limit. -/
theorem toRows_ofResults (results : List ResultSet) (maxRows : Nat) :
    (ofResults results maxRows).toRows.1 = upTo maxRows (results.flatMap ResultSet.rows) := by
  rw [toRows, fst_drain, left_ofResults]
  unfold left
  split
  · exact Nat.lt_succ_self _
  · exact Nat.lt_succ_of_le (List.length_take_le' _ _)

end Cursor

/-! ### Answers -/

namespace Executor

/-- Of the numbers of rows that tasks changed those are added whose tasks run on the shard of the
first one. -/
def firstShardSum (tasks : List Task) (counts : List Nat) : Nat :=
  match tasks with
  | [] => 0
  | first :: _ =>
    ((tasks.zip counts).map fun (t, n) => if t.shard = first.shard then n else 0).sum

/-- The answer of a write, by what its tasks have come to in the order of the plan. -/
inductive Writes (s : Statement) (p : Plan) :
    List (Except Cause Output) → Except Failure Nat → Prop where
  /-- All succeed, and what they changed is added up. -/
  | sum (counts : List Nat) (copies : p.broadcast = false) :
      Writes s p (counts.map fun n => .ok (.count n)) (.ok counts.sum)
  /-- All succeed at writing copies, of which only those of the first shard count. -/
  | firstShard (counts : List Nat) (copies : p.broadcast = true) :
      Writes s p (counts.map fun n => .ok (.count n)) (.ok (firstShardSum (updateTasks p) counts))
  /-- Some fail, and the first of them counts. -/
  | failure (before : List Output) (cause : Cause) (after : List (Except Cause Output)) :
      Writes s p (before.map .ok ++ .error cause :: after) (.error (failure s cause))

/-- The answer of a read, by what its tasks have come to in the order of the plan. -/
inductive Reads (s : Statement) (maxRows : Nat) :
    List (Except Cause Output) → Except Failure Cursor → Prop where
  /-- All succeed, and the cursor gives their rows one behind the other. -/
  | rows (results : List ResultSet) (c : Cursor) (columns : c = Cursor.ofResults results maxRows)
      (rows : c.toRows.1 = Cursor.upTo maxRows (results.flatMap ResultSet.rows)) :
      Reads s maxRows (results.map fun r => .ok (.rows r)) (.ok c)
  /-- Some fail, and the first of them counts. -/
  | failure (before : List Output) (cause : Cause) (after : List (Except Cause Output)) :
      Reads s maxRows (before.map .ok ++ .error cause :: after) (.error (failure s cause))

/-- The answer that is folded from what tasks have come to. -/
def answer {α : Type} (s : Statement) (fold : List Output → α)
    (outcomes : List (Except Cause Output)) : Except Failure α :=
  match collect outcomes with
  | .error cause => .error (failure s cause)
  | .ok outputs => .ok (fold outputs)

/-- The tasks of a plan before they begin. -/
def launch (e : Executor) (w : World) (s : Statement) (p : Plan) (maxRows : Nat)
    (use : StatementUse) : Execution :=
  ⟨w, tasksFor p maxRows use, s.kind, e.session.retry⟩

variable {α : Type} {e : Executor} {w w₁ : World} {s : Statement} {p : Plan} {maxRows : Nat}
  {use : StatementUse}

/-- Without a deadline an execution is a run of the tasks to their ends, and the answer is folded
from what they have come to. -/
theorem exists_run_of_execute (htimeout : e.session.timeout = none) (hlimit : 0 < e.limit)
    (hplan : e.plan w s = (.ok p, w₁)) (use : StatementUse) (huse : use.admits s.kind = true)
    (maxRows : Nat) (fold : Plan → List Output → α) :
    ∃ n y made, (e.launch w₁ s p maxRows use).Runs e.limit n y ∧ y.isFinished = true ∧
      e.execute w s use maxRows fold = (answer s (fold p) y.outcomes, y.world) ∧
      y.world.calls = w.calls ++ made.map Prod.snd ∧ y.Asked made := by
  have hdeadline : e.deadline (tasksFor p maxRows use).length = none := by
    rw [deadline, htimeout, Option.map_none]
  have hqueued : ∀ t ∈ (e.launch w₁ s p maxRows use).tasks, t.phase = .queued :=
    fun t ht => (queued_of_mem_tasksFor p maxRows use ht).1
  obtain ⟨n, hruns, hfinished⟩ := Schedule.runs_run hlimit hqueued
  obtain ⟨made, hlog, hasked⟩ := Schedule.logged_run hqueued e.limit none
  have hworld : w₁ = w.draw.2 := (congrArg Prod.snd hplan).symm
  have hcalls : (e.launch w₁ s p maxRows use).world.calls = w.calls := by
    rw [launch, hworld]
    rfl
  rw [hcalls] at hlog
  refine ⟨n, _, made, hruns, hfinished, ?_, hlog, hasked⟩
  have hended : e.ended w₁ s.kind (tasksFor p maxRows use) =
      Schedule.run (e.launch w₁ s p maxRows use) e.limit none := by
    rw [ended, hdeadline]
    rfl
  rw [execute, if_pos huse, hplan]
  simp only [invoke_eq, hended, if_pos hfinished]
  unfold answer Execution.outcomes
  cases collect _ <;> rfl

/-! ### What answers are made from -/

theorem foldr_filter_map {β : Type} (l : List β) (keep : β → Bool) (f : β → Nat) :
    ((l.filter keep).map f).foldr (· + ·) 0 = (l.map fun b => if keep b then f b else 0).sum := by
  induction l with
  | nil => rfl
  | cons b l ih =>
    rw [List.map_cons, List.sum_cons, ← ih, List.filter_cons]
    cases keep b
    · exact (Nat.zero_add _).symm
    · rfl

theorem totalCount_eq (broadcast : Bool) (tasks : List Task) (counts : List Nat) :
    totalCount broadcast tasks (counts.map .count) = ((tasks.zip counts).map fun (t, n) =>
      if !broadcast || tasks.head?.any (fun first => first.shard == t.shard) then n else 0).sum := by
  unfold totalCount
  rw [foldr_filter_map, List.zip_map_right, List.map_map]
  rfl

/-- The counts of all tasks are added up. -/
theorem totalCount_false {tasks : List Task} {counts : List Nat}
    (hlength : counts.length = tasks.length) :
    totalCount false tasks (counts.map .count) = counts.sum := by
  rw [totalCount_eq]
  exact congrArg List.sum (List.map_snd_zip hlength.le)

/-- The counts of the first shard are added up. -/
theorem totalCount_true (tasks : List Task) (counts : List Nat) :
    totalCount true tasks (counts.map .count) = firstShardSum tasks counts := by
  rw [totalCount_eq]
  cases tasks with
  | nil => rfl
  | cons first rest =>
    refine congrArg List.sum (List.map_congr_left fun (t, n) _ => ?_)
    show (if (first.shard == t.shard) = true then n else 0) = if t.shard = first.shard then n else 0
    by_cases hshard : t.shard = first.shard
    · rw [if_pos hshard, if_pos (beq_iff_eq.2 hshard.symm)]
    · rw [if_neg hshard, if_neg fun h => hshard (beq_iff_eq.1 h).symm]

theorem answer_map_ok (s : Statement) (fold : List Output → α) (outputs : List Output) :
    answer s fold (outputs.map .ok) = .ok (fold outputs) := by
  rw [answer, collect_map_ok]

theorem answer_counts (s : Statement) (fold : List Output → α) (counts : List Nat) :
    answer s fold (counts.map fun n => .ok (.count n)) = .ok (fold (counts.map .count)) := by
  rw [← answer_map_ok, List.map_map]
  rfl

theorem answer_rows (s : Statement) (fold : List Output → α) (rs : List ResultSet) :
    answer s fold (rs.map fun r => .ok (.rows r)) = .ok (fold (rs.map .rows)) := by
  rw [← answer_map_ok, List.map_map]
  rfl

theorem answer_of_error (s : Statement) (fold : List Output → α) (before : List Output)
    (cause : Cause) (after : List (Except Cause Output)) :
    answer s fold (before.map .ok ++ .error cause :: after) = .error (failure s cause) := by
  rw [answer, collect_of_error]

variable {outcomes : List (Except Cause Output)}

/-- Outputs that answer a write are numbers. -/
theorem writes_answer (hlength : outcomes.length = (updateTasks p).length)
    (hanswers : ∀ o, .ok o ∈ outcomes → o.Answers .update) :
    Writes s p outcomes (answer s (totalCount p.broadcast (updateTasks p)) outcomes) := by
  rcases results_cases outcomes with ⟨outputs, rfl⟩ | ⟨before, cause, after, rfl⟩
  · have hrange : outputs ∈ Set.range (List.map Output.count) := by
      rw [Set.range_list_map]
      intro o ho
      obtain ⟨n, rfl⟩ := Output.exists_count (hanswers o (List.mem_map_of_mem ho))
      exact ⟨n, rfl⟩
    obtain ⟨counts, rfl⟩ := hrange
    rw [List.length_map, List.length_map] at hlength
    rw [answer_map_ok, List.map_map]
    cases hcopies : p.broadcast with
    | false =>
      rw [totalCount_false hlength]
      exact .sum counts hcopies
    | true =>
      rw [totalCount_true]
      exact .firstShard counts hcopies
  · rw [answer_of_error]
    exact .failure before cause after

theorem results_map_rows (rs : List ResultSet) : results (rs.map .rows) = rs := by
  rw [results, List.filterMap_map]
  exact List.filterMap_some

/-- Outputs that answer a read are rows. -/
theorem reads_answer (maxRows : Nat) (hanswers : ∀ o, .ok o ∈ outcomes → o.Answers .query) :
    Reads s maxRows outcomes
      (answer s (fun outputs => Cursor.ofResults (results outputs) maxRows) outcomes) := by
  rcases results_cases outcomes with ⟨outputs, rfl⟩ | ⟨before, cause, after, rfl⟩
  · have hrange : outputs ∈ Set.range (List.map Output.rows) := by
      rw [Set.range_list_map]
      intro o ho
      obtain ⟨r, rfl⟩ := Output.exists_rows (hanswers o (List.mem_map_of_mem ho))
      exact ⟨r, rfl⟩
    obtain ⟨rs, rfl⟩ := hrange
    rw [answer_map_ok, List.map_map, results_map_rows]
    exact .rows rs _ rfl (Cursor.toRows_ofResults rs maxRows)
  · rw [answer_of_error]
    exact .failure before cause after

/-- There is one answer only. -/
theorem Writes.eq_answer {a : Except Failure Nat} (h : Writes s p outcomes a)
    (hlength : outcomes.length = (updateTasks p).length) :
    a = answer s (totalCount p.broadcast (updateTasks p)) outcomes := by
  cases h with
  | sum counts copies =>
    rw [List.length_map] at hlength
    rw [answer_counts, copies, totalCount_false hlength]
  | firstShard counts copies =>
    rw [answer_counts, copies, totalCount_true]
  | failure before cause after => rw [answer_of_error]

theorem Reads.eq_answer {a : Except Failure Cursor} (h : Reads s maxRows outcomes a) :
    a = answer s (fun outputs => Cursor.ofResults (results outputs) maxRows) outcomes := by
  cases h with
  | rows rs c columns rows =>
    rw [answer_rows, results_map_rows, columns]
  | failure before cause after => rw [answer_of_error]

/-- What tasks of a plan that have run to their ends have come to: each has an outcome, in the order
of the plan, and the outputs among them are answers. -/
theorem outcomes_of_runs {limit n : Nat} {y : Execution}
    (h : (e.launch w₁ s p maxRows use).Runs limit n y) (hfinished : y.isFinished = true) :
    (y.tasks.map Task.origin = (tasksFor p maxRows use).map Task.origin ∧
      y.tasks.map Task.phase = y.outcomes.map .finished) ∧
    y.outcomes.length = (tasksFor p maxRows use).length ∧
    ∀ o, .ok o ∈ y.outcomes → o.Answers use := by
  have hqueued := fun t => queued_of_mem_tasksFor p maxRows use (t := t)
  have hunder : Execution.Under (tasksFor p maxRows use) y :=
    h.under (Execution.under_start fun t ht => (hqueued t ht).1)
  have hphases := Execution.map_phase_of_isFinished hfinished
  refine ⟨⟨hunder.origin, hphases⟩, ?_, fun o => hunder.answers fun t ht => (hqueued t ht).2⟩
  have horigins := congrArg List.length hunder.origin
  have hlengths := congrArg List.length hphases
  rw [List.length_map, List.length_map] at horigins hlengths
  exact hlengths.symm.trans horigins

/-- Without a deadline the tasks of a statement run to their ends, in whichever order and under
whichever limit they go on, even if some of them fail, and each of them makes its calls, which are
logged; the answer is decided by what each of them has come to, in the order of the plan. -/
theorem answer_of_outcomes (htimeout : e.session.timeout = none) (hlimit : 0 < e.limit)
    (hplan : e.plan w s = (.ok p, w₁)) :
    (∀ use maxRows limit n y, 0 < limit → (e.launch w₁ s p maxRows use).Runs limit n y →
      n ≤ (e.launch w₁ s p maxRows use).totalBound ∧
      (y.isFinished = false → ∃ i, y.MayGoOn limit i) ∧
      (y.isFinished = true → y.tasks.map Task.origin = (tasksFor p maxRows use).map Task.origin ∧
        y.tasks.map Task.phase = y.outcomes.map .finished) ∧
      ∃ made, (e.launch w₁ s p maxRows use).Logs limit n y made ∧ y.Asked made) ∧
    (∀ limit n y, (e.launch w₁ s p 0 .update).Runs limit n y → y.isFinished = true →
      ∃! answer, Writes s p y.outcomes answer) ∧
    (∀ maxRows limit n y, (e.launch w₁ s p maxRows .query).Runs limit n y → y.isFinished = true →
      ∃! answer, Reads s maxRows y.outcomes answer) ∧
    (s.kind.isQuery = false → ∃ n y answer made, (e.launch w₁ s p 0 .update).Runs e.limit n y ∧
      y.isFinished = true ∧ Writes s p y.outcomes answer ∧ e.update w s = (answer, y.world) ∧
      y.world.calls = w.calls ++ made.map Prod.snd ∧ y.Asked made) ∧
    (s.kind.isQuery = true → ∀ maxRows, ∃ n y answer made,
      (e.launch w₁ s p maxRows .query).Runs e.limit n y ∧
      y.isFinished = true ∧ Reads s maxRows y.outcomes answer ∧
      e.query w s maxRows = (answer, y.world) ∧
      y.world.calls = w.calls ++ made.map Prod.snd ∧ y.Asked made) := by
  refine ⟨?_, ?_, ?_, ?_, ?_⟩
  · intro use maxRows limit n y hpos hruns
    have hqueued : ∀ t ∈ (e.launch w₁ s p maxRows use).tasks, t.phase = .queued :=
      fun t ht => (queued_of_mem_tasksFor p maxRows use ht).1
    exact ⟨hruns.le_totalBound hqueued, Execution.exists_mayGoOn hpos,
      fun hfinished => (outcomes_of_runs hruns hfinished).1, hruns.exists_logs hqueued⟩
  · intro limit n y hruns hfinished
    obtain ⟨-, hlength, hanswers⟩ := outcomes_of_runs hruns hfinished
    exact ⟨_, writes_answer hlength hanswers, fun a ha => ha.eq_answer hlength⟩
  · intro maxRows limit n y hruns hfinished
    obtain ⟨-, -, hanswers⟩ := outcomes_of_runs hruns hfinished
    exact ⟨_, reads_answer maxRows hanswers, fun a ha => ha.eq_answer⟩
  · intro hkind
    have huse : StatementUse.update.admits s.kind = true := by
      rw [StatementUse.admits, hkind, Bool.not_false]
    obtain ⟨n, y, made, hruns, hfinished, hexecute, hlog⟩ := exists_run_of_execute htimeout hlimit
      hplan .update huse 0 fun p => totalCount p.broadcast (updateTasks p)
    obtain ⟨-, hlength, hanswers⟩ := outcomes_of_runs hruns hfinished
    exact ⟨n, y, _, made, hruns, hfinished, writes_answer hlength hanswers,
      (e.update_eq w s).trans hexecute, hlog⟩
  · intro hkind maxRows
    obtain ⟨n, y, made, hruns, hfinished, hexecute, hlog⟩ := exists_run_of_execute htimeout hlimit
      hplan .query hkind maxRows fun _ outputs => Cursor.ofResults (results outputs) maxRows
    obtain ⟨-, -, hanswers⟩ := outcomes_of_runs hruns hfinished
    exact ⟨n, y, _, made, hruns, hfinished, reads_answer maxRows hanswers,
      (e.query_eq w s maxRows).trans hexecute, hlog⟩

/-- The two shards, of which one refuses to write. -/
def refusingWorld : World :=
  parityWorld.setBehaviour "d1" { failure := some ⟨1064, some "42000", "refused"⟩ }

/-- All tasks come to their ends and have made their calls, though one of these fails; the answer is
this failure. -/
theorem answer_of_outcomes_refusing : ∃ n y f made,
    (parityExecutor.launch refusingWorld.draw.2 parityInsert parityPlan 0 .update).Runs 2 n y ∧
      y.isFinished = true ∧ Writes parityInsert parityPlan y.outcomes (.error f) ∧
      f.cause = .fragment "s1" "INSERT INTO orders (user_id, note) VALUES (?, ?)"
        ⟨1064, some "42000", "refused"⟩ ∧
      y.Asked made ∧ made.map (fun entry => (entry.2.uid, entry.2.succeeded)) =
        [("d0", true), ("d1", false), ("d0", true)] := by
  have hplan : parityExecutor.plan refusingWorld parityInsert =
      (.ok parityPlan, refusingWorld.draw.2) := by rfl
  obtain ⟨-, -, -, hupdate, -⟩ := answer_of_outcomes rfl (Nat.succ_pos 1) hplan
  obtain ⟨n, y, answer, made, hruns, hfinished, hwrites, hanswer, hlog, hasked⟩ := hupdate rfl
  have herror : (parityExecutor.update refusingWorld parityInsert).1 = .error (failure parityInsert
      (.fragment "s1" "INSERT INTO orders (user_id, note) VALUES (?, ?)"
        ⟨1064, some "42000", "refused"⟩)) := by decide +kernel
  have hcalls : (parityExecutor.update refusingWorld parityInsert).2.calls.map
      (fun c => (c.uid, c.succeeded)) = [("d0", true), ("d1", false), ("d0", true)] := by
    decide +kernel
  rw [hanswer] at herror hcalls
  subst herror
  have hmade : y.world.calls = made.map Prod.snd := hlog
  rw [hmade, List.map_map] at hcalls
  exact ⟨n, y, _, made, hruns, hfinished, hwrites, rfl, hasked, hcalls⟩

end Executor

end ShardRouting
