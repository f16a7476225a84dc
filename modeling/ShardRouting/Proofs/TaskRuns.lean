import Mathlib
import ShardRouting.Cluster.Executor
import ShardRouting.Proofs.Worlds

/-!
# What the tasks of a write come to

A task goes on by steps, and the steps of several tasks come in an order that delays decide. What a
write changes is added up on the way: at any time it is what was counted so far and what is still to
be called. Where this is decided by shard, text and values, no order of the steps matters.

* `Task.Sound`: what has been counted and what is to come make up the total of a task.
* `Task.step_goesOn`: one step of one task; `Execution.step_sound`: the same among other tasks.
* `Schedule.run_induction`: what every step keeps holds at the end of a run;
  `Schedule.Simulation.run`: so does what steps of two executions keep between these.
* `Executor.outputs_of_invoke`: where all tasks of a write succeed, each gives its total.
-/

namespace ShardRouting

/-- The lists of values that work writes. -/
def Work.lists : Work → List (List Value)
  | .update _ params => [params]
  | .batch _ lists => lists
  | .query .. => []

variable {count : String → String → List Value → Nat}

/-! ### One task -/

namespace Task

/-- What the writes of a task change, by a count. -/
def total (count : String → String → List Value → Nat) (t : Task) : Nat :=
  (t.work.lists.map (count t.shard t.work.sql)).sum

/-- A task of a write is on its way to its total: it is at a datasource that counts as the shard
does, and what was changed so far and what is to come make up the total. -/
def Sound (count : String → String → List Value → Nat) (w : World) (t : Task) : Prop :=
  t.work.readOnly = false ∧
    match t.phase with
    | .queued => True
    | .opening uid _ => w.CountsAt count t.shard uid
    | .calling loan _ params more changed => w.CountsAt count t.shard loan.uid ∧
        changed + ((params ++ more.flatMap Prod.snd).map (count t.shard t.work.sql)).sum =
          t.total count
    | .finished result => ∀ o, result = .ok o → o = .count (t.total count)

variable {w w' : World} {t t' : Task} {kind : StatementKind} {retry : Nat}

theorem Sound.of_follows (h : t.Sound count w) (hfollows : w.Follows w') : t.Sound count w' := by
  refine ⟨h.1, ?_⟩
  have hphase := h.2
  split at hphase
  · trivial
  · exact hphase.of_follows hfollows
  · exact ⟨hphase.1.of_follows hfollows, hphase.2⟩
  · exact hphase

/-- The calls of a write make all its changes, one after another or all at once. -/
theorem flatMap_calls {work : Work} (h : work.readOnly = false) (style : ConnectionStyle) :
    (work.calls style).flatMap Prod.snd = work.lists := by
  cases work with
  | update sql params => rfl
  | query sql params maxRows => cases h
  | batch sql lists =>
    cases style with
    | native => exact List.append_nil lists
    | composed =>
      show (lists.map fun params => (CallKind.execute, [params])).flatMap Prod.snd = lists
      rw [List.flatMap_map]
      exact List.flatMap_singleton' lists

/-- A task and its world have gone on: the task keeps its shard and its work, and is on its way. -/
structure GoesOn (t : Task) (count : String → String → List Value → Nat) (w : World)
    (r : Task × World) : Prop where
  /-- The world follows. -/
  follows : w.Follows r.2
  /-- The task keeps its shard. -/
  shard : r.1.shard = t.shard
  /-- The task keeps its work. -/
  work : r.1.work = t.work
  /-- The task is on its way. -/
  sound : r.1.Sound count r.2

theorem GoesOn.of_follows {r : Task × World} (h : t.GoesOn count w' r) (hfollows : w.Follows w') :
    t.GoesOn count w r :=
  ⟨hfollows.trans h.follows, h.shard, h.work, h.sound⟩

/-- A task that has got a connection is on its way. -/
theorem sound_begin (hwrite : t.work.readOnly = false) {loan : Loan}
    (hcounts : w.CountsAt count t.shard loan.uid) :
    ({ t with phase := begin w t.work loan } : Task).Sound count w := by
  refine ⟨hwrite, ?_⟩
  have hcalls := flatMap_calls hwrite w.style
  unfold begin
  cases hc : t.work.calls w.style with
  | nil =>
    rw [hc] at hcalls
    rintro o ⟨⟩
    show Output.count 0 = .count (t.work.lists.map _).sum
    rw [← hcalls]
    rfl
  | cons call more =>
    rw [hc] at hcalls
    refine ⟨hcounts, ?_⟩
    show 0 + ((call.2 ++ more.flatMap Prod.snd).map _).sum = (t.work.lists.map _).sum
    rw [← hcalls, List.flatMap_cons, Nat.zero_add]

/-- The search for a connection keeps a task on its way. -/
theorem search_goesOn (hcounts : w.CountsBy count) (hwrite : t.work.readOnly = false)
    (s : World.Search) : t.GoesOn count w (t.search w retry s) := by
  obtain ⟨hfollows, hwithin⟩ := World.seek_within (w := w) (q := t.request retry) rfl s
  have hoffered : ∀ uid, w.repository.Offers t.shard t.work.readOnly uid →
      w.CountsAt count t.shard uid := by
    rw [hwrite]
    exact hcounts t.shard
  unfold search
  split
  · next loan w' hseek =>
    rw [hseek] at hfollows hwithin
    exact ⟨hfollows, rfl, rfl, sound_begin hwrite ((hoffered _ hwithin).of_follows hfollows)⟩
  · next uid rest w' hseek =>
    rw [hseek] at hfollows hwithin
    exact ⟨hfollows, rfl, rfl, hwrite, (hoffered _ hwithin).of_follows hfollows⟩
  · next cause w' hseek =>
    rw [hseek] at hfollows
    exact ⟨hfollows, rfl, rfl, hwrite, nofun⟩

theorem follows_fail (t : Task) (w : World) (kind : StatementKind) (loan : Loan) (e : SqlError) :
    w.Follows (t.fail w kind loan e).2 := by
  have hcounted := w.follows_count (.failed t.shard kind)
  simp only [fail]
  split
  · exact hcounted.trans (World.follows_reportIfFatal _ _ _)
  · exact hcounted.trans (World.follows_giveBack _ _)

/-- A task that fails has no total to come to. -/
theorem fail_goesOn (hwrite : t.work.readOnly = false) (loan : Loan) (e : SqlError) :
    t.GoesOn count w (t.fail w kind loan e) :=
  ⟨t.follows_fail w kind loan e, rfl, rfl, hwrite, nofun⟩

/-- An answer moves what was called to what was counted. -/
theorem answered_goesOn (hwrite : t.work.readOnly = false) {loan : Loan}
    (hcounts : w.CountsAt count t.shard loan.uid) {params : List (List Value)}
    {more : List (CallKind × List (List Value))} {changed : Nat}
    (htotal : changed + ((params ++ more.flatMap Prod.snd).map (count t.shard t.work.sql)).sum =
      t.total count) :
    t.GoesOn count w (t.answered w kind loan params more changed (w.behaviour loan.uid)) := by
  have hchanged : (params.map ((w.behaviour loan.uid).changes t.work.sql)).sum =
      (params.map (count t.shard t.work.sql)).sum :=
    congrArg List.sum (List.map_congr_left fun ps _ => hcounts _ ps)
  rw [List.map_append, List.sum_append, ← hchanged, ← Nat.add_assoc] at htotal
  unfold answered
  split
  · next hquery =>
    rw [hquery] at hwrite
    cases hwrite
  · split
    · exact ⟨World.Follows.refl w, rfl, rfl, hwrite, hcounts, htotal⟩
    · refine ⟨(w.follows_giveBack loan).trans (World.follows_count _ _), rfl, rfl, hwrite, ?_⟩
      rintro o ⟨⟩
      exact congrArg Output.count htotal

/-- One step keeps a task of a write on its way to its total. -/
theorem step_goesOn (hcounts : w.CountsBy count) (h : t.Sound count w) :
    t.GoesOn count w (t.step w kind retry) := by
  obtain ⟨hwrite, hphase⟩ := h
  unfold step
  cases hp : t.phase with
  | queued => exact search_goesOn hcounts hwrite _
  | opening uid s =>
    rw [hp] at hphase
    have hopen := w.follows_openConnection uid
    simp only
    split
    · next number w' hopened =>
      rw [hopened] at hopen
      exact ⟨hopen, rfl, rfl, sound_begin hwrite (hphase.of_follows hopen)⟩
    · next e w' hopened =>
      rw [hopened] at hopen
      have hreported := hopen.trans (w'.follows_reportIfFatal uid e)
      exact (search_goesOn (hcounts.of_follows hreported) hwrite _).of_follows hreported
  | calling loan callKind params more changed =>
    rw [hp] at hphase
    -- the call is logged before its answer counts, in a world that answers as the one before
    have hcall := w.follows_call loan callKind t.work.sql params
    simp only
    split
    · next b w' hcalled =>
      have hb := World.call_eq_ok (congrArg Prod.fst hcalled)
      rw [hcalled] at hcall
      rw [hb, ← hcall.behaviour]
      exact (answered_goesOn hwrite (hphase.1.of_follows hcall) hphase.2).of_follows hcall
    · next e w' hcalled =>
      rw [hcalled] at hcall
      exact (fail_goesOn hwrite loan e).of_follows hcall
  | finished result =>
    refine ⟨World.Follows.refl w, rfl, rfl, hwrite, ?_⟩
    rwa [hp] at hphase ⊢

end Task

/-! ### Tasks among others -/

/-- An entry may be replaced by one that looks alike. -/
theorem map_set_of_eq {α β : Type} {l : List α} {f : α → β} {i : Nat} {a b : α}
    (hi : l[i]? = some a) (h : f b = f a) : (l.set i b).map f = l.map f := by
  obtain ⟨hlt, rfl⟩ := List.getElem?_eq_some_iff.1 hi
  have hlt' : i < (l.map f).length := by rwa [List.length_map]
  have hsame := List.set_getElem_self hlt'
  rwa [List.getElem_map, ← h, ← List.map_set] at hsame

/-- What holds of all entries still does when one is replaced by another of which it holds. -/
theorem forall_mem_set {α : Type} {q : α → Prop} {l : List α} {i : Nat} {b : α}
    (hl : ∀ a ∈ l, q a) (hb : q b) : ∀ a ∈ l.set i b, q a := by
  intro a ha
  rcases List.mem_or_eq_of_mem_set ha with ha | rfl
  · exact hl a ha
  · exact hb

/-- Replacing an entry changes a sum by the difference of the two. -/
theorem sum_map_set {α : Type} {l : List α} {i : Nat} {a : α} (hi : l[i]? = some a) (f : α → Nat)
    (b : α) : ((l.set i b).map f).sum + f a = (l.map f).sum + f b := by
  induction l generalizing i with
  | nil => cases hi
  | cons c l ih =>
    cases i with
    | zero =>
      cases hi
      simp only [List.set_cons_zero, List.map_cons, List.sum_cons]
      omega
    | succ i =>
      have hrest := ih hi
      simp only [List.set_cons_succ, List.map_cons, List.sum_cons]
      omega

namespace Execution

/-- The tasks of a write are all on their way. -/
structure Sound (count : String → String → List Value → Nat) (w : World) (tasks : List Task)
    (x : Execution) : Prop where
  /-- The world follows the one that the write began in. -/
  follows : w.Follows x.world
  /-- The databases count by shard, text and values. -/
  counts : x.world.CountsBy count
  /-- The tasks keep their shards and their work. -/
  kept : x.tasks.map (fun t => (t.shard, t.work)) = tasks.map fun t => (t.shard, t.work)
  /-- Each task is on its way. -/
  sound : ∀ t ∈ x.tasks, t.Sound count x.world

variable {w : World} {tasks : List Task} {x : Execution}

/-- At their beginning the tasks of a write are on their way. -/
theorem sound_start (hcounts : w.CountsBy count)
    (hwrite : ∀ t ∈ tasks, t.work.readOnly = false ∧ t.phase = .queued) (kind : StatementKind)
    (retry : Nat) : Sound count w tasks ⟨w, tasks, kind, retry⟩ := by
  refine ⟨World.Follows.refl w, hcounts, rfl, fun t ht => ⟨(hwrite t ht).1, ?_⟩⟩
  rw [(hwrite t ht).2]
  trivial

/-- One step of any task keeps all tasks on their way. -/
theorem step_sound (h : Sound count w tasks x) (i : Nat) : Sound count w tasks (x.step i) := by
  unfold step
  cases hi : x.tasks[i]? with
  | none => exact h
  | some t =>
    have hgoes : t.GoesOn count x.world (t.step x.world x.kind x.retry) :=
      Task.step_goesOn h.counts (h.sound t (List.mem_of_getElem? hi))
    refine ⟨h.follows.trans hgoes.follows, h.counts.of_follows hgoes.follows, ?_, ?_⟩
    · rw [← h.kept]
      exact map_set_of_eq hi (Prod.ext hgoes.shard hgoes.work)
    · exact forall_mem_set (fun u hu => (h.sound u hu).of_follows hgoes.follows) hgoes.sound

end Execution

/-! ### Runs -/

namespace Schedule

variable {P : Execution → Prop}

theorem advance_induction (hstep : ∀ x i, P x → P (x.step i)) {x : Execution} (hx : P x) (i : Nat)
    (fuel : Nat) : P (advance x i fuel) := by
  induction fuel generalizing x with
  | zero => exact hx
  | succ fuel ih =>
    unfold advance
    simp only
    split
    · exact ih (hstep x i hx)
    · exact hstep x i hx

theorem turn_induction (hstep : ∀ x i, P x → P (x.step i)) {s : Schedule} (hs : P s.execution)
    (i : Nat) (ready : List Nat) : P (s.turn i ready).execution := by
  have hadvance := advance_induction hstep hs i (s.execution.totalBound + 1)
  unfold turn
  simp only
  split
  · exact hadvance
  · exact hadvance

theorem runFor_induction (hstep : ∀ x i, P x → P (x.step i)) (deadline : Option Deadline)
    (fuel : Nat) {s : Schedule} (hs : P s.execution) : P (runFor deadline fuel s).execution := by
  induction fuel generalizing s with
  | zero => exact hs
  | succ fuel ih =>
    unfold runFor
    split
    · exact hs
    · split
      · exact ih (turn_induction hstep hs _ _)
      · split
        · exact hs
        · split
          · exact ih hs
          · exact hs

/-- What every step of every task keeps holds at the end of a run, whatever the delays, the limit on
the tasks at a time and the deadline are. -/
theorem run_induction (hstep : ∀ x i, P x → P (x.step i)) {x : Execution} (hx : P x) (limit : Nat)
    (deadline : Option Deadline) : P (run x limit deadline) :=
  runFor_induction hstep deadline _ hx

/-- A relation between executions that steps of the same task keep, and under which tasks wait for as
long in both. -/
structure Simulation (R : Execution → Execution → Prop) : Prop where
  /-- Steps of the same task keep it. -/
  step : ∀ {x y} i, R x y → R (x.step i) (y.step i)
  /-- A task waits for as long. -/
  delay : ∀ {x y} i, R x y → y.delay? i = x.delay? i
  /-- There are as many tasks, and they take as many steps at most. -/
  bound : ∀ {x y}, R x y → y.totalBound = x.totalBound ∧ y.tasks.length = x.tasks.length

variable {R : Execution → Execution → Prop} {x y : Execution}

theorem Simulation.advance (h : Simulation R) (hxy : R x y) (i fuel : Nat) :
    R (Schedule.advance x i fuel) (Schedule.advance y i fuel) := by
  induction fuel generalizing x y with
  | zero => exact hxy
  | succ fuel ih =>
    have hstep := h.step i hxy
    unfold Schedule.advance
    simp only [h.delay i hstep]
    split
    · exact ih hstep
    · exact hstep

/-- A turn of one schedule is that of the other, but for the executions. -/
theorem Simulation.turn (h : Simulation R) {s : Schedule} (hy : R s.execution y) (i : Nat)
    (ready : List Nat) : ∃ y', R (s.turn i ready).execution y' ∧
      ({ s with execution := y } : Schedule).turn i ready =
        { s.turn i ready with execution := y' } := by
  have hadvance := h.advance hy i (s.execution.totalBound + 1)
  refine ⟨Schedule.advance y i (s.execution.totalBound + 1), ?_, ?_⟩
  · unfold Schedule.turn
    simp only
    split <;> exact hadvance
  · unfold Schedule.turn
    simp only [(h.bound hy).1, h.delay i hadvance]
    split <;> rfl

theorem Simulation.runFor (h : Simulation R) (deadline : Option Deadline) (fuel : Nat)
    {s : Schedule} (hy : R s.execution y) : R (Schedule.runFor deadline fuel s).execution
      (Schedule.runFor deadline fuel { s with execution := y }).execution := by
  induction fuel generalizing s y with
  | zero => exact hy
  | succ fuel ih =>
    have hnext : ({ s with execution := y } : Schedule).nextTime? = s.nextTime? := rfl
    unfold Schedule.runFor
    simp only [hnext]
    split
    · exact hy
    · split
      · next i ready _ =>
        obtain ⟨y', hy', hturn⟩ := h.turn hy i ready
        rw [hturn]
        exact ih hy'
      · split
        · exact hy
        · next time _ =>
          split
          · exact ih (s := s.moveTo time) hy
          · exact hy

/-- Executions that are related run alike, whatever the limit and the deadline are. -/
theorem Simulation.run (h : Simulation R) (hxy : R x y) (limit : Nat)
    (deadline : Option Deadline) :
    R (Schedule.run x limit deadline) (Schedule.run y limit deadline) := by
  have hstart : Schedule.start y limit = { Schedule.start x limit with execution := y } := by
    rw [Schedule.start, (h.bound hxy).2]
    rfl
  unfold Schedule.run
  rw [(h.bound hxy).1, (h.bound hxy).2, hstart]
  exact h.runFor deadline _ hxy

end Schedule

/-! ### Outcomes -/

namespace Executor

variable {e : Executor} {w w' : World} {kind : StatementKind} {tasks : List Task}
  {outputs : List Output}

/-- The end of a run of tasks. -/
def ended (e : Executor) (w : World) (kind : StatementKind) (tasks : List Task) : Execution :=
  Schedule.run ⟨w, tasks, kind, e.session.retry⟩ e.limit (e.deadline tasks.length)

/-- What tasks are executed for is there at the end of their run, if all have ended by then. -/
theorem invoke_eq (e : Executor) (w : World) (kind : StatementKind) (tasks : List Task) :
    e.invoke w kind tasks =
      if (e.ended w kind tasks).isFinished then
        (collect ((e.ended w kind tasks).tasks.filterMap Task.result?),
          (e.ended w kind tasks).world)
      else (.error (.timeout (e.session.timeout.getD 0)),
        (e.ended w kind tasks).world.count (.timedOut kind)) := rfl

/-- Every task has come to an output by the end of the run. -/
def AllSucceed (e : Executor) (w : World) (kind : StatementKind) (tasks : List Task) : Prop :=
  ∀ t ∈ (e.ended w kind tasks).tasks, ∃ o, t.phase = .finished (.ok o)

/-- Whether all tasks succeed can be seen from their results. -/
theorem allSucceed_iff : e.AllSucceed w kind tasks ↔
    ((e.ended w kind tasks).tasks.all fun t => t.result?.any Except.isOk) = true := by
  rw [AllSucceed, List.all_eq_true]
  refine forall₂_congr fun t _ => ?_
  unfold Task.result?
  cases t.phase with
  | finished result =>
    cases result with
    | ok o => exact ⟨fun _ => rfl, fun _ => ⟨o, rfl⟩⟩
    | error cause => exact ⟨nofun, nofun⟩
  | _ => exact ⟨nofun, nofun⟩

instance : Decidable (e.AllSucceed w kind tasks) :=
  decidable_of_iff _ allSucceed_iff.symm

/-- Results are outputs only, or there is a first failure among them. -/
theorem results_cases (results : List (Except Cause Output)) :
    (∃ outputs : List Output, results = outputs.map .ok) ∨
      ∃ before cause after, results = List.map .ok before ++ .error cause :: after := by
  induction results with
  | nil => exact Or.inl ⟨[], rfl⟩
  | cons result results ih =>
    cases result with
    | error cause => exact Or.inr ⟨[], cause, results, rfl⟩
    | ok o =>
      rcases ih with ⟨outputs, rfl⟩ | ⟨before, cause, after, rfl⟩
      · exact Or.inl ⟨o :: outputs, rfl⟩
      · exact Or.inr ⟨o :: before, cause, after, rfl⟩

theorem collect_map_ok (outputs : List Output) : collect (outputs.map .ok) = .ok outputs := by
  induction outputs with
  | nil => rfl
  | cons o outputs ih => rw [List.map_cons, collect, ih]

theorem collect_of_error (before : List Output) (cause : Cause)
    (after : List (Except Cause Output)) :
    collect (before.map .ok ++ .error cause :: after) = .error cause := by
  induction before with
  | nil => rfl
  | cons o before ih => rw [List.map_cons, List.cons_append, collect, ih]

/-- Outputs are collected where there are outputs only. -/
theorem collect_eq_ok_iff {results : List (Except Cause Output)} :
    collect results = .ok outputs ↔ results = outputs.map .ok := by
  constructor
  · intro h
    rcases results_cases results with ⟨outputs', rfl⟩ | ⟨before, cause, after, rfl⟩
    · rw [collect_map_ok] at h
      cases h
      rfl
    · rw [collect_of_error] at h
      cases h
  · rintro rfl
    exact collect_map_ok outputs

/-- Of several failures the first in order counts. -/
theorem collect_eq_error_iff {results : List (Except Cause Output)} {cause : Cause} :
    collect results = .error cause ↔
      ∃ before after, results = List.map .ok before ++ .error cause :: after := by
  constructor
  · intro h
    rcases results_cases results with ⟨outputs, rfl⟩ | ⟨before, cause', after, rfl⟩
    · rw [collect_map_ok] at h
      cases h
    · rw [collect_of_error] at h
      cases h
      exact ⟨before, after, rfl⟩
  · rintro ⟨before, after, rfl⟩
    exact collect_of_error before cause after

/-- Where all tasks have come to outputs, these are collected. -/
theorem exists_collect {ts : List Task} (h : ∀ t ∈ ts, ∃ o, t.phase = .finished (.ok o)) :
    ts.all Task.isFinished ∧ ∃ outputs, collect (ts.filterMap Task.result?) = .ok outputs := by
  induction ts with
  | nil => exact ⟨rfl, [], rfl⟩
  | cons t ts ih =>
    obtain ⟨o, ho⟩ := h t List.mem_cons_self
    obtain ⟨hfinished, outputs, houtputs⟩ := ih fun t ht => h t (List.mem_cons_of_mem _ ht)
    have hresult : t.result? = some (.ok o) := by rw [Task.result?, ho]
    refine ⟨?_, o :: outputs, ?_⟩
    · rw [List.all_cons, hfinished, Bool.and_true, Task.isFinished, ho]
    · rw [List.filterMap_cons_some hresult, collect, houtputs]

/-- Outputs that are collected from all tasks on their way are their totals. -/
theorem outputs_of_collect {ts : List Task} (hsound : ∀ t ∈ ts, t.Sound count w)
    (hfinished : ts.all Task.isFinished)
    (h : collect (ts.filterMap Task.result?) = .ok outputs) :
    outputs = ts.map fun t => .count (t.total count) := by
  induction ts generalizing outputs with
  | nil =>
    cases h
    rfl
  | cons t ts ih =>
    rw [List.all_cons, Bool.and_eq_true_iff] at hfinished
    obtain ⟨-, hphase⟩ := hsound t List.mem_cons_self
    cases hp : t.phase with
    | finished result =>
      have hresult : t.result? = some result := by rw [Task.result?, hp]
      rw [List.filterMap_cons_some hresult] at h
      rw [hp] at hphase
      cases result with
      | error cause => cases h
      | ok o =>
        rw [collect] at h
        split at h
        · cases h
        · next rest hrest =>
          cases h
          rw [List.map_cons, hphase o rfl,
            ih (fun t ht => hsound t (List.mem_cons_of_mem _ ht)) hfinished.2 hrest]
    | _ =>
      rw [Task.isFinished, hp] at hfinished
      cases hfinished.1

/-- Where all tasks succeed, their outputs are there. -/
theorem exists_invoke (h : e.AllSucceed w kind tasks) :
    ∃ outputs w', e.invoke w kind tasks = (.ok outputs, w') := by
  obtain ⟨hfinished, outputs, houtputs⟩ := exists_collect h
  refine ⟨outputs, (e.ended w kind tasks).world, ?_⟩
  rw [invoke_eq, if_pos (show (e.ended w kind tasks).isFinished from hfinished), houtputs]

/-- The outputs of the tasks of a write are their totals, if the databases count by shard, text and
values, and they still do so in the world behind it. -/
theorem outputs_of_invoke (hcounts : w.CountsBy count)
    (hwrite : ∀ t ∈ tasks, t.work.readOnly = false ∧ t.phase = .queued)
    (h : e.invoke w kind tasks = (.ok outputs, w')) :
    outputs = tasks.map (fun t => .count (t.total count)) ∧ w'.CountsBy count := by
  have hstart := Execution.sound_start hcounts hwrite kind e.session.retry
  have hsound : Execution.Sound count w tasks (e.ended w kind tasks) :=
    Schedule.run_induction (P := Execution.Sound count w tasks)
      (fun x i hx => Execution.step_sound hx i) hstart _ _
  rw [invoke_eq] at h
  split at h
  · next hfinished =>
    obtain ⟨houtputs, rfl⟩ := Prod.mk.inj h
    refine ⟨?_, hsound.counts⟩
    rw [outputs_of_collect hsound.sound hfinished houtputs]
    -- a total is decided by the shard and the work, which a task keeps
    have hkept := congrArg (List.map fun key : String × Work =>
      Output.count ((key.2.lists.map (count key.1 key.2.sql)).sum)) hsound.kept
    rw [List.map_map, List.map_map] at hkept
    exact hkept
  · cases h

end Executor

end ShardRouting
