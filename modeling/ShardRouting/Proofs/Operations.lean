import Mathlib
import ShardRouting.Cluster.Executor
import ShardRouting.Cluster.Monitor
import ShardRouting.Proofs.Repositories

/-!
# A repository in operation

Statements report what fails fatally, and the monitor takes reports, demotes, validates and wakes.
All of them work on one repository at the same time: between any two steps of the monitor tasks may
go on, failures may be reported, and databases may begin to answer in another way.

* `Task.uses_step`: a step of a task does to a repository what statements may do.
* `World.repository_validate`: a validation does nothing to it.
* `Operation`: a repository in use, with tasks and a monitor that takes one step at a time;
  `Operation.after` is a run in which anything may come between two steps.
* `Operation.exists_check`: without interruption the steps of the monitor make up `Monitor.check`.
-/

namespace ShardRouting

/-! ### What statements do -/

namespace World

variable {w w' : World} {q : ConnectionRequest}

theorem uses_choose {isFirst : Bool} {excluded : List String} {given : Option String}
    (h : w.choose q isFirst excluded = .ok (given, w')) : w.repository.Uses w'.repository := by
  unfold choose at h
  split at h
  · have hstep := Repository.uses_step (r := w.repository) (x := .select q w.draw.1) rfl
    have hselect : w.draw.2.repository.select q w.draw.1 = w.repository.select q w.draw.1 := rfl
    simp only [hselect] at h
    cases hs : w.repository.select q w.draw.1 with
    | error f =>
      rw [hs] at h
      cases h
    | ok r =>
      rw [hs] at h
      cases h
      rwa [Repository.step, hs] at hstep
  · split at h
    · cases h
    · cases h
      exact Repository.Uses.refl _

theorem uses_seekFrom (isFirst : Bool) (excluded : List String) (left : Nat) :
    w.repository.Uses (w.seekFrom q isFirst excluded left).2.repository := by
  induction left generalizing w isFirst with
  | zero => exact Repository.Uses.refl _
  | succ left ih =>
    rw [seekFrom]
    split
    · exact Repository.Uses.refl _
    · next hchoose => exact (uses_choose hchoose).trans (ih false)
    · next uid w' hchoose =>
      split
      · next number r hidle =>
        have hstep := Repository.uses_step (r := w'.repository) (x := .takeIdle uid) rfl
        rw [Repository.step, hidle] at hstep
        exact (uses_choose hchoose).trans hstep
      · exact uses_choose hchoose

theorem repository_openConnection (w : World) (uid : String) :
    (w.openConnection uid).2.repository = w.repository := by
  unfold openConnection
  split <;> rfl

theorem repository_call (w : World) (loan : Loan) (kind : CallKind) (sql : String)
    (params : List (List Value)) : (w.call loan kind sql params).2.repository = w.repository := by
  simp only [call]
  split <;> rfl

theorem uses_reportIfFatal (w : World) (uid : String) (e : SqlError) :
    w.repository.Uses (w.reportIfFatal uid e).repository := by
  show w.repository.Uses (w.repository.reportIfFatal uid e)
  unfold Repository.reportIfFatal
  split
  · exact Repository.uses_step (x := .report uid) rfl
  · exact Repository.Uses.refl _

theorem uses_giveBack (w : World) (loan : Loan) : w.repository.Uses (w.giveBack loan).repository :=
  Repository.uses_step (x := .giveBack loan.uid loan.number) rfl

end World

namespace Task

variable {t : Task} {w : World} {kind : StatementKind} {retry : Nat}

theorem uses_search (t : Task) (w : World) (retry : Nat) (s : World.Search) :
    w.repository.Uses (t.search w retry s).2.repository := by
  have hseek := World.uses_seekFrom (w := w) (q := t.request retry) s.isFirst s.excluded s.left
  unfold search World.seek
  split
  · next h =>
    rw [h] at hseek
    exact hseek
  · next h =>
    rw [h] at hseek
    exact hseek
  · next h =>
    rw [h] at hseek
    exact hseek

theorem uses_fail (t : Task) (w : World) (kind : StatementKind) (loan : Loan) (e : SqlError) :
    w.repository.Uses (t.fail w kind loan e).2.repository := by
  simp only [fail]
  split
  · exact World.uses_reportIfFatal (w.count _) loan.uid e
  · exact World.uses_giveBack (w.count _) loan

theorem uses_answered (t : Task) (w : World) (kind : StatementKind) (loan : Loan)
    (params : List (List Value)) (more : List (CallKind × List (List Value))) (changed : Nat)
    (b : Behaviour) :
    w.repository.Uses (t.answered w kind loan params more changed b).2.repository := by
  unfold answered
  split
  · exact World.uses_giveBack w loan
  · split
    · exact Repository.Uses.refl _
    · exact World.uses_giveBack w loan

/-- A step of a task does to the repository what statements may do. -/
theorem uses_step (t : Task) (w : World) (kind : StatementKind) (retry : Nat) :
    w.repository.Uses (t.step w kind retry).2.repository := by
  unfold step
  split
  · exact uses_search t w retry _
  · next uid s _ =>
    have hopen := w.repository_openConnection uid
    split
    · next h =>
      rw [h] at hopen
      rw [← hopen]
      exact Repository.Uses.refl _
    · next e w' h =>
      rw [h] at hopen
      rw [← hopen]
      exact (w'.uses_reportIfFatal uid e).trans (uses_search t _ retry _)
  · next loan callKind params more changed _ =>
    have hcall := w.repository_call loan callKind t.work.sql params
    split
    · next h =>
      rw [h] at hcall
      rw [← hcall]
      exact uses_answered t _ kind loan params more changed _
    · next h =>
      rw [h] at hcall
      rw [← hcall]
      exact uses_fail t _ kind loan _
  · exact Repository.Uses.refl _

end Task

/-- A validation leaves the repository as it is. -/
theorem World.repository_validate (w : World) (d : Datasource) (timeout : Nat) :
    (w.validate d timeout).2.2.repository = w.repository := by
  have hopen := w.repository_openConnection d.uid
  simp only [World.validate]
  split
  · rfl
  · split
    · next h =>
      rw [h] at hopen
      exact hopen
    · next number w' h =>
      rw [h] at hopen
      split
      · exact hopen
      · rw [← hopen]
        unfold World.probe
        simp only
        split
        · split <;> rfl
        · next query _ _ =>
          have hcall := w'.repository_call ⟨d.uid, number⟩ .query query [[]]
          split
          · next h =>
            rw [h] at hcall
            exact hcall
          · next h =>
            rw [h] at hcall
            exact hcall
        · rfl

/-! ### Operation -/

/-- How far a monitor is. -/
inductive Stage where
  /-- No check is going on. -/
  | idle
  /-- Reports are being taken. -/
  | taking
  /-- Suspects are being validated; these are still to come. -/
  | validating (pending : List String)
  deriving DecidableEq

/-- A task of a statement that is being executed. -/
structure Running where
  /-- The task. -/
  task : Task
  /-- What the statement does. -/
  kind : StatementKind
  /-- How many more datasources the task tries after a failure. -/
  retry : Nat

/-- A repository in use: the tasks that run on it, and a monitor with what its present check has come
to. -/
structure Operation where
  /-- The world, the suspects, and the results of the present check. -/
  progress : Monitor.Progress
  /-- How far the monitor is. -/
  stage : Stage := .idle
  /-- The results of the checks that have ended, the earliest first. -/
  checks : List (List (String × CheckStatus)) := []
  /-- The tasks of the statements. -/
  running : List Running := []

namespace Operation

/-- Something that happens while a repository is in use. -/
inductive Event where
  /-- A statement is planned, and its tasks are there to run. -/
  | statement (e : Executor) (s : Statement) (maxRows : Nat)
  /-- A task takes a step. -/
  | goOn (i : Nat)
  /-- A failure is reported. -/
  | report (uid : String)
  /-- A database answers in another way from now on. -/
  | behave (uid : String) (b : Behaviour)
  /-- The monitor takes a step. -/
  | monitor

/-- The world. -/
def world (o : Operation) : World :=
  o.progress.world

/-- The repository. -/
def repository (o : Operation) : Repository :=
  o.world.repository

/-- The datasources that the monitor suspects. -/
def suspects (o : Operation) : List String :=
  o.progress.suspects

/-- What all validations so far came to, in order. -/
def validated (o : Operation) : List (String × CheckStatus) :=
  o.checks.flatten ++ o.progress.results

/-- The operation in another world. -/
def withWorld (o : Operation) (world : World) : Operation :=
  { o with progress := { o.progress with world } }

/-- A world in which nothing runs and nothing is suspected. -/
def start (world : World) : Operation :=
  { progress := { world, suspects := [] } }

/-- A report is taken: its datasource goes out of use, unless it is suspected already. -/
def takeReport (p : Monitor.Progress) (uid : String) (rest : List String) : Monitor.Progress :=
  let (suspects, repository) :=
    Monitor.demoteAll p.suspects { p.world.repository with reports := rest } [uid]
  { p with world := { p.world with repository }, suspects }

/-- The next step of the monitor: a check begins, takes one report after another until none is left,
validates one suspect after another, and ends. -/
def monitorStep (timeout : Nat) (o : Operation) : Operation :=
  match o.stage with
  | .idle => { o with stage := .taking }
  | .taking =>
    match o.repository.reports with
    | uid :: rest => { o with progress := takeReport o.progress uid rest }
    | [] => { o with stage := .validating o.suspects }
  | .validating (uid :: pending) =>
    { o with stage := .validating pending, progress := Monitor.checkOne timeout o.progress uid }
  | .validating [] =>
    { o with
      stage := .idle
      checks := o.checks ++ [o.progress.results]
      progress := { world := o.world, suspects := o.suspects } }

/-- The tasks of a statement. -/
def tasksOf (e : Executor) (s : Statement) (p : Plan) (maxRows : Nat) : List Running :=
  (if s.kind.isQuery then Executor.queryTasks p maxRows else Executor.updateTasks p).map fun task =>
    ⟨task, s.kind, e.session.retry⟩

/-- The operation behind one event. -/
def step (timeout : Nat) (o : Operation) : Event → Operation
  | .statement e s maxRows =>
    match e.plan o.world s with
    | (.error _, w) => o.withWorld w
    | (.ok p, w) => { o.withWorld w with running := o.running ++ tasksOf e s p maxRows }
  | .goOn i =>
    match o.running[i]? with
    | none => o
    | some x =>
      let (task, w) := x.task.step o.world x.kind x.retry
      { o.withWorld w with running := o.running.set i { x with task } }
  | .report uid => o.withWorld { o.world with repository := o.repository.report uid }
  | .behave uid b => o.withWorld (o.world.setBehaviour uid b)
  | .monitor => o.monitorStep timeout

/-- The operation behind a run. -/
def after (timeout : Nat) (o : Operation) (events : List Event) : Operation :=
  events.foldl (step timeout) o

variable {o o' o'' : Operation} {timeout : Nat} {uid v : String}

/-! ### One check without interruption -/

/-- Some steps of the monitor lead from one state to another. -/
def Checks (timeout : Nat) (o o' : Operation) : Prop :=
  ∃ n, o.after timeout (List.replicate n .monitor) = o'

theorem Checks.trans (h : Checks timeout o o') (h' : Checks timeout o' o'') :
    Checks timeout o o'' := by
  obtain ⟨n, rfl⟩ := h
  obtain ⟨m, rfl⟩ := h'
  refine ⟨n + m, ?_⟩
  rw [List.replicate_add, after, List.foldl_append]
  rfl

theorem checks_step (o : Operation) : Checks timeout o (o.monitorStep timeout) :=
  ⟨1, rfl⟩

/-- Demotions do not look at the reports. -/
theorem demoteAll_withReports (suspects : List String) (r : Repository) (reports : List String)
    (uids : List String) : Monitor.demoteAll suspects { r with reports } uids =
      ((Monitor.demoteAll suspects r uids).1,
        { (Monitor.demoteAll suspects r uids).2 with reports }) := by
  induction uids generalizing suspects r with
  | nil => rfl
  | cons uid uids ih =>
    unfold Monitor.demoteAll
    split
    · exact ih suspects r
    · rw [Repository.demote_withReports]
      exact ih _ _

theorem demoteAll_cons (suspects : List String) (r : Repository) (uid : String)
    (uids : List String) : Monitor.demoteAll suspects r (uid :: uids) =
      Monitor.demoteAll (Monitor.demoteAll suspects r [uid]).1
        (Monitor.demoteAll suspects r [uid]).2 uids := by
  by_cases h : uid ∈ suspects <;> simp [Monitor.demoteAll, h]

/-- What a check has done when it has taken reports and none are left. -/
def takeReports (p : Monitor.Progress) (uids : List String) : Monitor.Progress :=
  { p with
    world := { p.world with repository :=
      { (Monitor.demoteAll p.suspects p.world.repository uids).2 with reports := [] } }
    suspects := (Monitor.demoteAll p.suspects p.world.repository uids).1 }

theorem takeReports_cons (p : Monitor.Progress) (uid : String) (rest : List String) :
    takeReports (takeReport p uid rest) rest = takeReports p (uid :: rest) := by
  simp only [takeReports, takeReport, demoteAll_withReports, demoteAll_cons _ _ uid rest]

/-- All reports are taken, one after another. -/
theorem checks_taking (o : Operation) (hstage : o.stage = .taking) (reports : List String)
    (hreports : o.repository.reports = reports) :
    Checks timeout o { o with
      stage := .validating (takeReports o.progress reports).suspects
      progress := takeReports o.progress reports } := by
  induction reports generalizing o with
  | nil =>
    have hstep : o.monitorStep timeout = { o with
        stage := .validating (takeReports o.progress []).suspects
        progress := takeReports o.progress [] } := by
      simp only [monitorStep, hstage, hreports]
      obtain ⟨⟨⟨⟨datasources, selectors, _⟩, _, _, _, _, _⟩, _, _, _⟩, _, _, _⟩ := o
      cases hreports
      rfl
    exact hstep ▸ checks_step o
  | cons uid rest ih =>
    have hstep : o.monitorStep timeout =
        { o with progress := takeReport o.progress uid rest } := by
      simp only [monitorStep, hstage, hreports]
    have hrest : (takeReport o.progress uid rest).world.repository.reports = rest := by
      simp only [takeReport, demoteAll_withReports]
    apply (checks_step o).trans
    rw [hstep, ← takeReports_cons]
    exact ih { o with progress := takeReport o.progress uid rest } hstage hrest

/-- All suspects are validated, one after another. -/
theorem checks_validating (o : Operation) (pending : List String)
    (hstage : o.stage = .validating pending) :
    Checks timeout o { o with
      stage := .validating []
      progress := pending.foldl (Monitor.checkOne timeout) o.progress } := by
  induction pending generalizing o with
  | nil =>
    refine ⟨0, ?_⟩
    obtain ⟨_, _, _, _⟩ := o
    cases hstage
    rfl
  | cons uid pending ih =>
    have hstep : o.monitorStep timeout = { o with
        stage := .validating pending
        progress := Monitor.checkOne timeout o.progress uid } := by
      simp only [monitorStep, hstage]
    apply (checks_step o).trans
    rw [hstep]
    exact ih _ rfl

/-- Without interruption the steps of the monitor make up a check: it leaves the world and the
suspects that the check does, and its results with those of the checks before it. -/
theorem exists_check (timeout : Nat) (m : Monitor) (w : World)
    (checks : List (List (String × CheckStatus))) (running : List Running) :
    Checks timeout ⟨{ world := w, suspects := m.suspects }, .idle, checks, running⟩
      ⟨{ world := (m.check timeout w).world, suspects := (m.check timeout w).suspects }, .idle,
        checks ++ [(m.check timeout w).results], running⟩ := by
  refine (checks_step _).trans ?_
  refine (checks_taking _ rfl _ rfl).trans ?_
  refine (checks_validating _ _ rfl).trans ?_
  exact checks_step _

end Operation

end ShardRouting
