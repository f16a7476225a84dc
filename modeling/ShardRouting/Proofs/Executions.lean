import ShardRouting.Cluster.Executor
import ShardRouting.Proofs.RowBatches
import ShardRouting.Proofs.TaskSteps

/-!
# How statements are executed

Writes and reads are executed alike: the kind of the statement is checked, its plan made, the tasks
of the plan run, and their outputs folded into one answer. They differ in the tasks and in the fold.

* `Executor.execute`: the common form, with `Executor.update_eq` and `Executor.query_eq`.
* `Executor.executes`: the four ways in which an execution may end.
* `Execution.Under`: what tasks keep while they run, whatever else happens;
  `Execution.Under.failsWith` and `Execution.Under.answers`: what they may come to.
-/

namespace ShardRouting

/-! ### Tasks of plans -/

/-- Whether statements of a kind have a use. -/
def StatementUse.admits (use : StatementUse) (kind : StatementKind) : Bool :=
  match use with
  | .query => kind.isQuery
  | .update => !kind.isQuery

/-- Whether work is for a use: values to write, or something to read. -/
def Work.Suits : Work → StatementUse → Prop
  | .update .., .update => True
  | .batch _ lists, .update => lists ≠ []
  | .query .., .query => True
  | _, _ => False

/-- Whether an output is the answer of a use. -/
def Output.Answers : Output → StatementUse → Prop
  | .count _, .update => True
  | .rows _, .query => True
  | _, _ => False

variable {work : Work} {use : StatementUse}

theorem Output.Fits.answers {o : Output} (h : o.Fits work) (hsuits : work.Suits use) :
    o.Answers use := by
  cases o <;> cases work <;> cases use <;> trivial

theorem Output.exists_count {o : Output} (h : o.Answers .update) : ∃ n, o = .count n := by
  cases o with
  | count n => exact ⟨n, rfl⟩
  | rows r => exact h.elim

theorem Output.exists_rows {o : Output} (h : o.Answers .query) : ∃ r, o = .rows r := by
  cases o with
  | count n => exact h.elim
  | rows r => exact ⟨r, rfl⟩

/-- Work with something to do takes a call at least. -/
theorem Work.Suits.calls_ne_nil (h : work.Suits use) (style : ConnectionStyle) :
    work.calls style ≠ [] := by
  cases work with
  | update | query => exact List.cons_ne_nil _ _
  | batch sql lists =>
    cases use with
    | query => exact h.elim
    | update =>
      cases style with
      | native => exact List.cons_ne_nil _ _
      | composed => exact List.map_eq_nil_iff.not.2 h

namespace Executor

/-- The tasks of a plan for a use. -/
def tasksFor (p : Plan) (maxRows : Nat) : StatementUse → List Task
  | .update => updateTasks p
  | .query => queryTasks p maxRows

/-- The tasks of a plan have not begun, and their work is for the use of the plan. -/
theorem queued_of_mem_tasksFor (p : Plan) (maxRows : Nat) (use : StatementUse) {t : Task}
    (ht : t ∈ tasksFor p maxRows use) :
    t.phase = .queued ∧ t.work.Suits use := by
  cases use with
  | query =>
    obtain ⟨f, -, rfl⟩ := List.mem_map.1 ht
    exact ⟨rfl, trivial⟩
  | update =>
    by_cases hkind : p.kind = .insert ∨ p.kind = .merge
    · refine ⟨(queued_of_mem_updateTasks hkind ht).2, ?_⟩
      rcases (batches_updateTasks hkind).work t ht with ⟨params, hwork⟩ | ⟨lists, hlt, hwork⟩
      · rw [hwork]
        trivial
      · rw [hwork]
        exact List.ne_nil_of_length_pos (Nat.zero_lt_of_lt hlt)
    · unfold tasksFor updateTasks at ht
      rw [if_neg hkind] at ht
      obtain ⟨f, -, rfl⟩ := List.mem_map.1 ht
      exact ⟨rfl, trivial⟩

/-! ### The common form -/

variable {α : Type} {e : Executor} {w w' : World} {s : Statement} {fold : Plan → List Output → α}

/-- Executes a statement for a use and folds the outputs of its tasks into an answer. -/
def execute (e : Executor) (w : World) (s : Statement) (use : StatementUse) (maxRows : Nat)
    (fold : Plan → List Output → α) : Except Failure α × World :=
  if use.admits s.kind then
    match e.plan w s with
    | (.error f, w) => (.error f, w)
    | (.ok p, w) =>
      match e.invoke w s.kind (tasksFor p maxRows use) with
      | (.error cause, w) => (.error (failure s cause), w)
      | (.ok outputs, w) => (.ok (fold p outputs), w)
  else (.error (failure s (.wrongKind s.kind use)), w)

theorem update_eq (e : Executor) (w : World) (s : Statement) : e.update w s =
    e.execute w s .update 0 fun p outputs => totalCount p.broadcast (updateTasks p) outputs := by
  unfold update execute StatementUse.admits
  cases s.kind.isQuery <;> rfl

theorem query_eq (e : Executor) (w : World) (s : Statement) (maxRows : Nat) :
    e.query w s maxRows =
      e.execute w s .query maxRows fun _ outputs => Cursor.ofResults (results outputs) maxRows := by
  unfold query execute StatementUse.admits
  cases s.kind.isQuery <;> rfl

/-- The ways in which an execution may end. -/
inductive Executes (e : Executor) (w : World) (s : Statement) (use : StatementUse) (maxRows : Nat)
    (fold : Plan → List Output → α) : Except Failure α × World → Prop where
  /-- The statement does not have the use. -/
  | wrongKind (unfit : use.admits s.kind = false) :
      Executes e w s use maxRows fold (.error (failure s (.wrongKind s.kind use)), w)
  /-- The statement has no plan. -/
  | unplanned {f : Failure} {w' : World} (fit : use.admits s.kind = true)
      (plan : e.plan w s = (.error f, w')) : Executes e w s use maxRows fold (.error f, w')
  /-- The tasks of its plan fail. -/
  | failed {p : Plan} {w₁ w' : World} {cause : Cause} (fit : use.admits s.kind = true)
      (plan : e.plan w s = (.ok p, w₁))
      (invoke : e.invoke w₁ s.kind (tasksFor p maxRows use) = (.error cause, w')) :
      Executes e w s use maxRows fold (.error (failure s cause), w')
  /-- The tasks of its plan succeed. -/
  | succeeded {p : Plan} {w₁ w' : World} {outputs : List Output} (fit : use.admits s.kind = true)
      (plan : e.plan w s = (.ok p, w₁))
      (invoke : e.invoke w₁ s.kind (tasksFor p maxRows use) = (.ok outputs, w')) :
      Executes e w s use maxRows fold (.ok (fold p outputs), w')

theorem executes (e : Executor) (w : World) (s : Statement) (use : StatementUse) (maxRows : Nat)
    (fold : Plan → List Output → α) :
    Executes e w s use maxRows fold (e.execute w s use maxRows fold) := by
  unfold execute
  split
  · next fit =>
    split
    · next plan => exact .unplanned fit plan
    · next plan =>
      split
      · next invoke => exact .failed fit plan invoke
      · next invoke => exact .succeeded fit plan invoke
  · next unfit => exact .wrongKind (Bool.not_eq_true _ ▸ unfit)

end Executor

/-! ### Tasks that run -/

/-- What a task keeps: its shard and its work. -/
def Task.origin (t : Task) : String × Work :=
  (t.shard, t.work)

namespace Execution

/-- Tasks have become others that have the same shards and the same work, and may have ended. -/
structure Under (tasks : List Task) (x : Execution) : Prop where
  /-- The tasks keep their shards and their work. -/
  origin : x.tasks.map Task.origin = tasks.map Task.origin
  /-- Those that have ended have come to what they may come to. -/
  ends : ∀ t ∈ x.tasks, t.Ends

variable {tasks : List Task} {x : Execution} {kind : StatementKind} {retry : Nat}

theorem step_of_getElem? {i : Nat} {t : Task} (hi : x.tasks[i]? = some t) : x.step i = { x with
    world := (t.step x.world x.kind x.retry).2
    tasks := x.tasks.set i (t.step x.world x.kind x.retry).1 } := by
  rw [step, hi]

/-- What does not change while tasks run. -/
theorem frame_step (x : Execution) (i : Nat) : (x.step i).kind = x.kind ∧
    (x.step i).retry = x.retry ∧ (x.step i).world.style = x.world.style := by
  cases hi : x.tasks[i]? with
  | none =>
    rw [step, hi]
    exact ⟨rfl, rfl, rfl⟩
  | some t =>
    rw [step_of_getElem? hi]
    exact ⟨rfl, rfl, (t.goes_step x.world x.kind x.retry).style⟩

theorem under_start {w : World} (hqueued : ∀ t ∈ tasks, t.phase = .queued) :
    Under tasks ⟨w, tasks, kind, retry⟩ := by
  refine ⟨rfl, fun t ht => ?_⟩
  rw [Task.Ends, hqueued t ht]
  trivial

theorem Under.step (h : Under tasks x) (i : Nat) : Under tasks (x.step i) := by
  unfold Execution.step
  cases hi : x.tasks[i]? with
  | none => exact h
  | some t =>
    have hgoes := t.goes_step x.world x.kind x.retry
    exact ⟨(map_set_of_eq hi (Prod.ext hgoes.kept.1 hgoes.kept.2)).trans h.origin,
      forall_mem_set h.ends (hgoes.ends (h.ends t (List.mem_of_getElem? hi)))⟩

/-- What the tasks that have ended have come to, in the order of the plan. -/
def outcomes (x : Execution) : List (Except Cause Output) :=
  x.tasks.filterMap Task.result?

/-- What has ended has an outcome. -/
theorem map_phase_of_isFinished (h : x.isFinished = true) :
    x.tasks.map Task.phase = x.outcomes.map .finished := by
  unfold isFinished at h
  unfold outcomes
  generalize x.tasks = tasks at h ⊢
  induction tasks with
  | nil => rfl
  | cons t ts ih =>
    rw [List.all_cons, Bool.and_eq_true_iff] at h
    have hphase := h.1
    unfold Task.isFinished at hphase
    split at hphase
    · next result hp =>
      have hresult : t.result? = some result := by rw [Task.result?, hp]
      rw [List.map_cons, hp, List.filterMap_cons_some hresult, List.map_cons, ih h.2]
    · cases hphase

/-- An outcome is that of a task that has ended. -/
theorem exists_of_mem_outcomes {result : Except Cause Output} (h : result ∈ x.outcomes) :
    ∃ t ∈ x.tasks, t.phase = .finished result := by
  obtain ⟨t, ht, hresult⟩ := List.mem_filterMap.1 h
  refine ⟨t, ht, ?_⟩
  unfold Task.result? at hresult
  split at hresult
  · next hphase =>
    cases hresult
    exact hphase
  · cases hresult

/-- A task that has become another is still there. -/
theorem Under.exists_origin (h : Under tasks x) {t : Task} (ht : t ∈ x.tasks) :
    ∃ u ∈ tasks, u.origin = t.origin := by
  have hmem : t.origin ∈ tasks.map Task.origin := h.origin ▸ List.mem_map_of_mem ht
  obtain ⟨u, hu, horigin⟩ := List.mem_map.1 hmem
  exact ⟨u, hu, horigin⟩

/-- Among the outcomes are only failures of the tasks. -/
theorem Under.failsWith (h : Under tasks x) {cause : Cause} (hcause : .error cause ∈ x.outcomes) :
    ∃ t ∈ tasks, t.FailsWith cause := by
  obtain ⟨t, ht, hphase⟩ := exists_of_mem_outcomes hcause
  have hends := h.ends t ht
  rw [Task.Ends, hphase] at hends
  obtain ⟨u, hu, horigin⟩ := h.exists_origin ht
  obtain ⟨hshard, hwork⟩ := Prod.mk.inj horigin
  refine ⟨u, hu, ?_⟩
  cases hends with
  | unavailable => exact hshard ▸ .unavailable
  | noSuchShard => exact hshard ▸ .noSuchShard
  | fragment e => exact hshard ▸ hwork ▸ .fragment e

/-- Tasks that suit a use give outputs that are answers of it. -/
theorem Under.answers (h : Under tasks x) {use : StatementUse}
    (hsuits : ∀ t ∈ tasks, t.work.Suits use) {o : Output} (ho : .ok o ∈ x.outcomes) :
    o.Answers use := by
  obtain ⟨t, ht, hphase⟩ := exists_of_mem_outcomes ho
  have hends := h.ends t ht
  rw [Task.Ends, hphase] at hends
  obtain ⟨u, hu, horigin⟩ := h.exists_origin ht
  have hwork := hsuits u hu
  rw [(Prod.mk.inj horigin).2] at hwork
  exact Output.Fits.answers hends hwork

end Execution

namespace Executor

variable {e : Executor} {w w' : World} {kind : StatementKind} {tasks : List Task} {cause : Cause}
  {outputs : List Output}

theorem under_ended (e : Executor) (w : World) (kind : StatementKind)
    (hqueued : ∀ t ∈ tasks, t.phase = .queued) :
    Execution.Under tasks (e.ended w kind tasks) :=
  Schedule.run_induction (fun _ i h => h.step i) (Execution.under_start hqueued) _ _

/-- What fails is an outcome of a task, or there is no time left. -/
theorem mem_outcomes_of_invoke (h : e.invoke w kind tasks = (.error cause, w')) :
    .error cause ∈ (e.ended w kind tasks).outcomes ∨ ∃ ms, cause = .timeout ms := by
  rw [invoke_eq] at h
  split at h
  · obtain ⟨hcollect, -⟩ := Prod.mk.inj h
    obtain ⟨before, after, hresults⟩ := collect_eq_error_iff.1 hcollect
    have houtcomes : (e.ended w kind tasks).outcomes = _ := hresults
    rw [houtcomes]
    exact Or.inl (List.mem_append_right _ List.mem_cons_self)
  · cases h
    exact Or.inr ⟨_, rfl⟩

/-- Tasks fail with the failure of one of them, or because there is no time left. -/
theorem failsWith_of_invoke (hqueued : ∀ t ∈ tasks, t.phase = .queued)
    (h : e.invoke w kind tasks = (.error cause, w')) :
    (∃ t ∈ tasks, t.FailsWith cause) ∨ ∃ ms, cause = .timeout ms :=
  (mem_outcomes_of_invoke h).imp_left (e.under_ended w kind hqueued).failsWith

/-- The outputs of tasks that suit a use are answers of it. -/
theorem answers_of_invoke {use : StatementUse}
    (hqueued : ∀ t ∈ tasks, t.phase = .queued ∧ t.work.Suits use)
    (h : e.invoke w kind tasks = (.ok outputs, w')) : ∀ o ∈ outputs, o.Answers use := by
  rw [invoke_eq] at h
  split at h
  · obtain ⟨hcollect, -⟩ := Prod.mk.inj h
    have houtcomes : (e.ended w kind tasks).outcomes = _ := collect_eq_ok_iff.1 hcollect
    intro o ho
    have hunder := e.under_ended w kind fun t ht => (hqueued t ht).1
    refine hunder.answers (fun t ht => (hqueued t ht).2) ?_
    rw [houtcomes]
    exact List.mem_map_of_mem ho
  · cases h

end Executor

end ShardRouting
