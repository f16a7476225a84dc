import Mathlib
import ShardRouting.Proofs.Connections
import ShardRouting.Proofs.HealthRuns

/-!
# Statements over one repository

Many statements run at the same time over one repository, and take their connections from it. Each
has its tasks, which go on in any order; a statement answers when all its tasks have ended, or at
its deadline, which drops the tasks that have not. Failures are reported, databases change, and a
monitor checks in between.

* `Traffic` and `Traffic.step`: statements in flight, and what may happen next.
* `Traffic.Moves`: what an event comes to, with `Traffic.moves_step`.
* `Traffic.exists_run`: an execution without others beside it is a run of this kind.
* `Traffic.Sound`: each connection is in one place at most, and tasks are where queues are; with
  `Traffic.Sound.moves` for one event and `Traffic.Sound.after` for a run.
-/

namespace ShardRouting

/-- What a kind of statements is for. -/
def StatementKind.use (kind : StatementKind) : StatementUse :=
  if kind.isQuery then .query else .update

theorem StatementKind.use_eq {kind : StatementKind} {use : StatementUse}
    (h : use.admits kind = true) : kind.use = use := by
  unfold StatementKind.use
  cases use with
  | query => exact if_pos h
  | update => exact if_neg (by simpa [StatementUse.admits] using h)

/-- A statement that is being executed. -/
structure Flight where
  /-- What the statement does. -/
  kind : StatementKind
  /-- How many more datasources a task tries after a failure. -/
  retry : Nat
  /-- Its tasks. -/
  tasks : List Task
  /-- Whether it has answered. -/
  answered : Bool := false

namespace Flight

/-- The tasks of a statement in a world. -/
def execution (f : Flight) (w : World) : Execution :=
  ⟨w, f.tasks, f.kind, f.retry⟩

/-- The connections that a statement uses. -/
def loans (f : Flight) : List Loan :=
  f.tasks.flatMap fun t => t.loan?.toList

/-- The statement behind its deadline: the tasks that have not ended are dropped. -/
def cut (f : Flight) : Flight :=
  { f with tasks := f.tasks.filter Task.isFinished, answered := true }

variable {f : Flight} {w w' : World}

theorem loans_of_ended (h : ∀ t ∈ f.tasks, t.isFinished = true) : f.loans = [] := by
  rw [loans, List.flatMap_eq_nil_iff]
  intro t ht
  rw [Task.loan?_of_isFinished (h t ht), Option.toList_none]

theorem loans_cut (f : Flight) : f.cut.loans = [] :=
  loans_of_ended fun _ ht => (List.mem_filter.1 ht).2

/-- The tasks of a new statement hold nothing. -/
theorem loans_of_tasksFor {p : Plan} {maxRows : Nat} {use : StatementUse}
    (h : f.tasks = Executor.tasksFor p maxRows use) : f.loans = [] := by
  rw [loans, h, List.flatMap_eq_nil_iff]
  intro t ht
  have hqueued := (Executor.queued_of_mem_tasksFor p maxRows use ht).1
  rw [Task.loan?_of_isSeeking (Or.inl hqueued), Option.toList_none]

/-- What holds of a statement in flight. -/
structure Sound (f : Flight) (w : World) : Prop where
  /-- Its tasks have something to do. -/
  suits : ∀ t ∈ f.tasks, ∃ use, t.work.Suits use
  /-- They are at datasources that have queues. -/
  placed : ∀ t ∈ f.tasks, t.Placed w
  /-- If it has answered, they have ended. -/
  answered : f.answered = true → ∀ t ∈ f.tasks, t.isFinished = true

theorem Sound.keep (h : f.Sound w)
    (hkeeps : ∀ uid, (w.idle? uid).isSome → (w'.idle? uid).isSome) : f.Sound w' :=
  ⟨h.suits, fun t ht uid huid => hkeeps uid (h.placed t ht uid huid), h.answered⟩

theorem sound_of_tasksFor (w : World) {p : Plan} {maxRows : Nat} {use : StatementUse}
    (htasks : f.tasks = Executor.tasksFor p maxRows use) (hnew : f.answered = false) :
    f.Sound w := by
  have hqueued := fun t => Executor.queued_of_mem_tasksFor p maxRows use (t := t)
  rw [← htasks] at hqueued
  refine ⟨fun t ht => ⟨use, (hqueued t ht).2⟩, fun t ht uid huid => ?_, fun h => ?_⟩
  · rw [Task.datasource?, (hqueued t ht).1] at huid
    cases huid
  · rw [hnew] at h
    cases h

/-- A task that takes a step leaves its statement sound. -/
theorem Sound.goOn (h : f.Sound w) (hcoherent : w.repository.Coherent) {i : Nat} {t : Task}
    (ht : f.tasks[i]? = some t) :
    Sound { f with tasks := f.tasks.set i (t.step w f.kind f.retry).1 }
      (t.step w f.kind f.retry).2 := by
  have hmem := List.mem_of_getElem? ht
  have hgoes := t.goes_step w f.kind f.retry
  have hkeep := h.keep fun uid => hgoes.isSome_idle?
  refine ⟨forall_mem_set h.suits ?_, forall_mem_set hkeep.placed ?_, fun hanswered => ?_⟩
  · rw [hgoes.kept.2]
    exact h.suits t hmem
  · exact hgoes.placed hcoherent (h.placed t hmem)
  · have hended := h.answered hanswered
    refine forall_mem_set hended ?_
    rw [Task.step_of_isFinished (hended t hmem)]
    exact hended t hmem

theorem Sound.cut (h : f.Sound w) : f.cut.Sound w :=
  ⟨fun t ht => h.suits t (List.mem_filter.1 ht).1, fun t ht => h.placed t (List.mem_filter.1 ht).1,
    fun _ _ ht => (List.mem_filter.1 ht).2⟩

end Flight

/-- A repository in use by statements. -/
structure Traffic where
  /-- The world and the monitor. -/
  operation : Operation
  /-- The statements, the earliest first. -/
  flights : List Flight := []

namespace Traffic

/-- Something that happens while statements run. -/
inductive Event where
  /-- A statement is planned, and its tasks are there to run. -/
  | statement (e : Executor) (s : Statement) (maxRows : Nat)
  /-- A task of a statement takes a step. -/
  | goOn (k i : Nat)
  /-- A statement answers, if all its tasks have ended. -/
  | answer (k : Nat)
  /-- A statement answers at its deadline, if it has not yet; its tasks are dropped. -/
  | deadline (k : Nat)
  /-- A failure is reported. -/
  | report (uid : String)
  /-- A database answers in another way from now on. -/
  | behave (uid : String) (b : Behaviour)
  /-- The monitor takes a step. -/
  | monitor

/-- The world. -/
def world (a : Traffic) : World :=
  a.operation.world

/-- The traffic in another world. -/
def withWorld (a : Traffic) (w : World) : Traffic :=
  { a with operation := a.operation.withWorld w }

/-- The traffic with a statement replaced. -/
def setFlight (a : Traffic) (k : Nat) (f : Flight) : Traffic :=
  { a with flights := a.flights.set k f }

/-- The traffic with one more statement, in another world. -/
def beside (a : Traffic) (w : World) (f : Flight) : Traffic :=
  { a.withWorld w with flights := a.flights ++ [f] }

/-- A world in which nothing runs. -/
def start (w : World) : Traffic :=
  { operation := Operation.start w }

/-- The connections that tasks use. -/
def held (a : Traffic) : List Loan :=
  a.flights.flatMap Flight.loans

/-- The traffic behind one event. -/
def step (timeout : Nat) (a : Traffic) : Event → Traffic
  | .statement e s maxRows =>
    match e.plan a.world s with
    | (.error _, w) => a.withWorld w
    | (.ok p, w) =>
      a.beside w ⟨s.kind, e.session.retry, Executor.tasksFor p maxRows s.kind.use, false⟩
  | .goOn k i =>
    match a.flights[k]? with
    | none => a
    | some f =>
      let x := (f.execution a.world).step i
      (a.withWorld x.world).setFlight k { f with tasks := x.tasks }
  | .answer k =>
    match a.flights[k]? with
    | none => a
    | some f =>
      if f.tasks.all Task.isFinished then a.setFlight k { f with answered := true } else a
  | .deadline k =>
    match a.flights[k]? with
    | none => a
    | some f =>
      if f.answered then a
      else (a.withWorld (a.world.count (.timedOut f.kind))).setFlight k f.cut
  | .report uid => { a with operation := a.operation.step timeout (.report uid) }
  | .behave uid b => { a with operation := a.operation.step timeout (.behave uid b) }
  | .monitor => { a with operation := a.operation.step timeout .monitor }

/-- The traffic behind a run. -/
def after (timeout : Nat) (a : Traffic) (events : List Event) : Traffic :=
  events.foldl (step timeout) a

/-! ### Events -/

variable {timeout : Nat} {a b : Traffic} {k i : Nat} {f : Flight} {t : Task} {event : Event}
  {loan : Loan}

/-- What an event comes to. -/
inductive Moves (a : Traffic) : Event → Traffic → Prop where
  /-- Nothing happens. -/
  | rests {event : Event} : Moves a event a
  /-- A statement begins. -/
  | begins {e : Executor} {s : Statement} {maxRows : Nat} {w : World} {p : Plan}
      (plan : e.plan a.world s = (.ok p, w)) :
      Moves a (.statement e s maxRows)
        (a.beside w ⟨s.kind, e.session.retry, Executor.tasksFor p maxRows s.kind.use, false⟩)
  /-- A task takes a step. -/
  | goesOn {k i : Nat} {f : Flight} {t : Task} (flight : a.flights[k]? = some f)
      (task : f.tasks[i]? = some t) :
      Moves a (.goOn k i) ((a.withWorld (t.step a.world f.kind f.retry).2).setFlight k
        { f with tasks := f.tasks.set i (t.step a.world f.kind f.retry).1 })
  /-- A statement all of whose tasks have ended answers. -/
  | answers {k : Nat} {f : Flight} (flight : a.flights[k]? = some f)
      (ended : ∀ t ∈ f.tasks, t.isFinished = true) :
      Moves a (.answer k) (a.setFlight k { f with answered := true })
  /-- A statement answers at its deadline. -/
  | cuts {k : Nat} {f : Flight} (flight : a.flights[k]? = some f) (late : f.answered = false) :
      Moves a (.deadline k) ((a.withWorld (a.world.count (.timedOut f.kind))).setFlight k f.cut)
  /-- Something passes the statements by. -/
  | passes {event : Event} {o : Operation} (drains : a.world.Drains o.world)
      (agrees : Operation.Agrees a.operation.progress → Operation.Agrees o.progress) :
      Moves a event { a with operation := o }

theorem setFlight_self (h : a.flights[k]? = some f) : a.setFlight k f = a := by
  obtain ⟨hlt, rfl⟩ := List.getElem?_eq_some_iff.1 h
  unfold setFlight
  rw [List.set_getElem_self]

theorem step_goOn (hf : a.flights[k]? = some f) (ht : f.tasks[i]? = some t) :
    a.step timeout (.goOn k i) = (a.withWorld (t.step a.world f.kind f.retry).2).setFlight k
      { f with tasks := f.tasks.set i (t.step a.world f.kind f.retry).1 } := by
  have hstep := Execution.step_of_getElem? (x := f.execution a.world) ht
  simp only [step, hf, hstep]
  rfl

/-- A step of a task that is not there changes nothing. -/
theorem step_goOn_of_none (hf : a.flights[k]? = some f) (ht : f.tasks[i]? = none) :
    a.step timeout (.goOn k i) = a := by
  have hstep : (f.execution a.world).step i = f.execution a.world := by
    rw [Execution.step]
    simp only [Flight.execution, ht]
  simp only [step, hf, hstep]
  exact setFlight_self hf

theorem moves_step (timeout : Nat) (a : Traffic) (event : Event) :
    a.Moves event (a.step timeout event) := by
  cases event with
  | statement e s maxRows =>
    have hworld : (e.plan a.world s).2 = a.world.draw.2 := rfl
    simp only [step]
    split
    · next w hplan =>
      rw [hplan] at hworld
      subst hworld
      refine .passes (World.drains_of_datasources rfl rfl) fun h => ?_
      exact h.of_uses (Repository.Uses.refl _) rfl
    · next hplan => exact .begins hplan
  | goOn k i =>
    cases hf : a.flights[k]? with
    | none =>
      rw [step, hf]
      exact .rests
    | some f =>
      cases ht : f.tasks[i]? with
      | none =>
        rw [step_goOn_of_none hf ht]
        exact .rests
      | some t =>
        rw [step_goOn hf ht]
        exact .goesOn hf ht
  | answer k =>
    simp only [step]
    split
    · exact .rests
    · next f hf =>
      split
      · next hended => exact .answers hf (List.all_eq_true.1 hended)
      · exact .rests
  | deadline k =>
    simp only [step]
    split
    · exact .rests
    · next f hf =>
      split
      · exact .rests
      · next hlate => exact .cuts hf (Bool.not_eq_true _ ▸ hlate)
  | report uid =>
    refine .passes ?_ fun h => h.move (Operation.move_step timeout _ _)
    exact ⟨fun v => Or.inl (a.world.repository.idle?_report uid v), fun _ => Nat.le_refl _⟩
  | behave uid b =>
    exact .passes (a.world.drains_setBehaviour uid b)
      fun h => h.move (Operation.move_step timeout _ _)
  | monitor =>
    exact .passes (World.drains_monitorStep timeout a.operation)
      fun h => h.move (Operation.move_step timeout _ _)

/-- A statement without connections changes nothing that is held. -/
theorem held_beside (a : Traffic) (w : World) (h : f.loans = []) :
    (a.beside w f).held = a.held := by
  unfold held beside
  rw [List.flatMap_append, List.flatMap_singleton, h, List.append_nil]

/-! ### Executions -/

section Run

variable {α : Type} {e : Executor} {s : Statement} {use : StatementUse} {maxRows : Nat} {p : Plan}
  {w w' : World} {fold : Plan → List Output → α}

theorem getElem?_beside (a : Traffic) (w : World) (f : Flight) :
    (a.beside w f).flights[a.flights.length]? = some f :=
  List.getElem?_concat_length

theorem setFlight_beside (a : Traffic) (w : World) (f f' : Flight) :
    (a.beside w f).setFlight a.flights.length f' = a.beside w f' := by
  simp only [setFlight, beside, withWorld, List.set_append_right _ _ (Nat.le_refl _), Nat.sub_self,
    List.set_cons_zero]

/-- A task of the latest statement takes a step. -/
theorem step_beside (timeout : Nat) (a : Traffic) (w : World) (f : Flight) (i : Nat) :
    (a.beside w f).step timeout (.goOn a.flights.length i) =
      a.beside ((f.execution w).step i).world
        { f with tasks := ((f.execution w).step i).tasks } := by
  have hflight := a.getElem?_beside w f
  have hworld : (a.beside w f).world = w := rfl
  simp only [step, hflight, hworld]
  exact a.setFlight_beside _ f _

theorem after_append (timeout : Nat) (a : Traffic) (events more : List Event) :
    a.after timeout (events ++ more) = (a.after timeout events).after timeout more :=
  List.foldl_append

/-- The schedule of a statement is one order among others for its tasks to go on. -/
theorem exists_run_of_schedule (timeout : Nat) (a : Traffic) (w : World) (f : Flight) (limit : Nat)
    (deadline : Option Schedule.Deadline) :
    ∃ events, (a.beside w f).after timeout events =
      a.beside (Schedule.run (f.execution w) limit deadline).world
        { f with tasks := (Schedule.run (f.execution w) limit deadline).tasks } := by
  refine (Schedule.run_induction (P := fun x => (x.kind = f.kind ∧ x.retry = f.retry) ∧
    ∃ events, (a.beside w f).after timeout events = a.beside x.world { f with tasks := x.tasks })
    ?_ ⟨⟨rfl, rfl⟩, [], rfl⟩ limit deadline).2
  rintro ⟨w, tasks, kind, retry⟩ i ⟨⟨rfl, rfl⟩, events, hevents⟩
  obtain ⟨hkind, hretry, -⟩ := Execution.frame_step ⟨w, tasks, f.kind, f.retry⟩ i
  refine ⟨⟨hkind, hretry⟩, events ++ [.goOn a.flights.length i], ?_⟩
  rw [after_append, hevents]
  exact a.step_beside timeout w { f with tasks } i

/-- The tasks of a plan run beside others, and the statement answers. -/
theorem exists_run_of_invoke (timeout : Nat) (fit : use.admits s.kind = true)
    (plan : e.plan a.world s = (.ok p, w)) {r : Except Cause (List Output)}
    (invoke : e.invoke w s.kind (Executor.tasksFor p maxRows use) = (r, w')) :
    ∃ events, (a.after timeout events).world = w' ∧ (a.after timeout events).held = a.held := by
  have huse := StatementKind.use_eq fit
  let f : Flight := ⟨s.kind, e.session.retry, Executor.tasksFor p maxRows use, false⟩
  have hbegin : a.step timeout (.statement e s maxRows) = a.beside w f := by
    simp only [step, plan, huse]
    rfl
  obtain ⟨events, hevents⟩ := exists_run_of_schedule timeout a w f e.limit
    (e.deadline (Executor.tasksFor p maxRows use).length)
  change _ = a.beside (e.ended w s.kind (Executor.tasksFor p maxRows use)).world
    { f with tasks := (e.ended w s.kind (Executor.tasksFor p maxRows use)).tasks } at hevents
  rw [Executor.invoke_eq] at invoke
  generalize e.ended w s.kind (Executor.tasksFor p maxRows use) = x at hevents invoke
  -- the run ends with an answer, or with the deadline
  have hlast : ∃ last f', (a.beside x.world { f with tasks := x.tasks }).step timeout last =
      a.beside w' f' ∧ f'.loans = [] := by
    have hflight := a.getElem?_beside x.world { f with tasks := x.tasks }
    split at invoke
    · next hfinished =>
      cases invoke
      refine ⟨.answer a.flights.length, { f with tasks := x.tasks, answered := true }, ?_,
        Flight.loans_of_ended (List.all_eq_true.1 hfinished)⟩
      have hall : x.tasks.all Task.isFinished = true := hfinished
      simp only [step, hflight, hall, if_true]
      exact a.setFlight_beside x.world _ _
    · cases invoke
      refine ⟨.deadline a.flights.length, Flight.cut { f with tasks := x.tasks }, ?_,
        Flight.loans_cut _⟩
      simp only [step, hflight]
      exact a.setFlight_beside (x.world.count (.timedOut s.kind)) _ _
  obtain ⟨last, f', hstep, hloans⟩ := hlast
  have hrun : a.after timeout (.statement e s maxRows :: (events ++ [last])) = a.beside w' f' := by
    show (a.step timeout _).after timeout _ = _
    rw [hbegin, after_append, hevents]
    exact hstep
  exact ⟨_, congrArg world hrun, (congrArg held hrun).trans (a.held_beside w' hloans)⟩

/-- An execution of a statement is a run that leaves nothing in use. -/
theorem exists_run (timeout : Nat) (a : Traffic) (e : Executor) (s : Statement) (use : StatementUse)
    (maxRows : Nat) (fold : Plan → List Output → α) :
    ∃ events, (a.after timeout events).world = (e.execute a.world s use maxRows fold).2 ∧
      (a.after timeout events).held = a.held := by
  have hexecutes := e.executes a.world s use maxRows fold
  generalize e.execute a.world s use maxRows fold = r at hexecutes ⊢
  cases hexecutes with
  | wrongKind => exact ⟨[], rfl, rfl⟩
  | @unplanned failure w' fit plan =>
    have hstep : a.step timeout (.statement e s maxRows) = a.withWorld w' := by
      simp only [step, plan]
    exact ⟨[.statement e s maxRows], congrArg world hstep, (congrArg held hstep).trans rfl⟩
  | failed fit plan invoke | succeeded fit plan invoke =>
    exact exists_run_of_invoke timeout fit plan invoke

end Run

/-! ### One copy of each connection -/

/-- The ledger of the connections that are used or idle. -/
def ledger (a : Traffic) : Ledger :=
  a.world.ledger.add fun loan => a.held.count loan

/-- The copies of a connection are those in use and those that are idle. -/
theorem copies_ledger (a : Traffic) (loan : Loan) :
    a.ledger.copies loan = a.held.count loan + a.world.idleCount loan := rfl

theorem count_flatMap_set {α : Type} {l : List α} {n : Nat} {x : α} (hn : l[n]? = some x)
    (loans : α → List Loan) (y : α) (loan : Loan) :
    ((l.set n y).flatMap loans).count loan + (loans x).count loan =
      (l.flatMap loans).count loan + (loans y).count loan := by
  rw [List.count_flatMap, List.count_flatMap]
  exact sum_map_set hn (List.count loan ∘ loans) y

/-- A statement that is replaced changes what is held by its own share. -/
theorem count_held_setFlight (hf : a.flights[k]? = some f) (f' : Flight) (loan : Loan) :
    (a.setFlight k f').held.count loan + f.loans.count loan =
      a.held.count loan + f'.loans.count loan :=
  count_flatMap_set hf Flight.loans f' loan

/-- So does a task. -/
theorem count_held_setTask (hf : a.flights[k]? = some f) (ht : f.tasks[i]? = some t) (t' : Task)
    (loan : Loan) :
    (a.setFlight k { f with tasks := f.tasks.set i t' }).held.count loan +
        t.loan?.toList.count loan =
      a.held.count loan + t'.loan?.toList.count loan := by
  have hheld := count_held_setFlight hf { f with tasks := f.tasks.set i t' } loan
  have hloans : Flight.loans { f with tasks := f.tasks.set i t' } =
      (f.tasks.set i t').flatMap fun t => t.loan?.toList := rfl
  have hcount := count_flatMap_set ht (fun t => t.loan?.toList) t' loan
  rw [hloans, Flight.loans] at hheld
  omega

/-- What a task does to connections is all that its step does to them. -/
theorem leads_setTask {w : World} {t' : Task} (hf : a.flights[k]? = some f)
    (ht : f.tasks[i]? = some t) (h : (t.ledger a.world).Leads (t'.ledger w)) :
    a.ledger.Leads ((a.withWorld w).setFlight k { f with tasks := f.tasks.set i t' }).ledger := by
  refine h.congr rfl rfl fun loan => ?_
  have hheld := count_held_setTask (a := a.withWorld w) hf ht t' loan
  have hbefore : (t.ledger a.world).copies loan =
      t.loan?.toList.count loan + a.world.idleCount loan := rfl
  have hafter : (t'.ledger w).copies loan = t'.loan?.toList.count loan + w.idleCount loan := rfl
  have hworld : ((a.withWorld w).setFlight k { f with tasks := f.tasks.set i t' }).world = w := rfl
  have hsame : (a.withWorld w).held = a.held := rfl
  rw [copies_ledger, copies_ledger, hbefore, hafter, hworld]
  rw [hsame] at hheld
  omega

/-- Where no task takes a connection and none is given back, none gets a copy. -/
theorem leads_of_held (hdrains : a.world.Drains b.world)
    (hheld : ∀ loan, b.held.count loan ≤ a.held.count loan) : a.ledger.Leads b.ledger := by
  refine Ledger.leads_of_le hdrains.opened fun loan => ?_
  rw [copies_ledger, copies_ledger]
  exact Nat.add_le_add (hheld loan) (hdrains.idleCount_le loan)

theorem drains_of_plan {e : Executor} {s : Statement} {p : Plan} {w : World}
    (h : e.plan a.world s = (.ok p, w)) : a.world.Drains w := by
  obtain rfl : a.world.draw.2 = w := congrArg Prod.snd h
  exact World.drains_of_datasources rfl rfl

/-! ### Sound traffic -/

/-- What holds of statements in flight. -/
structure Sound (a : Traffic) : Prop where
  /-- The monitor agrees with a coherent repository. -/
  agrees : Operation.Agrees a.operation.progress
  /-- There is one copy of each connection at most. -/
  ledger : a.ledger.Sound
  /-- Each statement is sound. -/
  flights : ∀ f ∈ a.flights, f.Sound a.world

/-- In the beginning no connection is used, and none is idle. -/
theorem sound_start {settings : Settings} {w : World}
    (hbuild : Repository.build settings = .ok w.repository) : (start w).Sound := by
  refine ⟨Operation.agrees_start hbuild, fun loan => ?_, nofun⟩
  have hidle : w.idleCount loan = 0 := by
    unfold World.idleCount World.idle? Repository.idle?
    cases hd : w.repository.datasource? loan.uid with
    | none => rfl
    | some d =>
      rw [Option.map_some, Option.elim_some,
        Repository.idle_of_build hbuild d (List.mem_of_find?_eq_some hd), List.count_nil]
  have hcopies : (start w).ledger.copies loan = w.idleCount loan := Nat.zero_add _
  rw [hcopies, hidle]
  exact Nat.zero_le _

/-- An event gives a copy to a connection only if that is opened. -/
theorem Sound.leads (h : a.Sound) (hmoves : a.Moves event b) : a.ledger.Leads b.ledger := by
  cases hmoves with
  | rests => exact .refl _
  | begins plan =>
    refine leads_of_held (drains_of_plan plan) fun loan => ?_
    rw [held_beside a _ (Flight.loans_of_tasksFor rfl)]
  | goesOn flight task =>
    apply leads_setTask flight task
    obtain ⟨use, hsuits⟩ := (h.flights _ (List.mem_of_getElem? flight)).suits _
      (List.mem_of_getElem? task)
    exact (Task.goes_step _ _ _ _).leads (hsuits.calls_ne_nil _)
  | @answers k f flight ended =>
    refine leads_of_held (World.Drains.refl _) fun loan => ?_
    have hcount := count_held_setFlight flight { f with answered := true } loan
    exact Nat.le_of_add_le_add_right hcount.le
  | @cuts k f flight late =>
    refine leads_of_held (a.world.stays_count (.timedOut f.kind)).drains fun loan => ?_
    have hcount := count_held_setFlight flight f.cut loan
    rw [f.loans_cut, List.count_nil] at hcount
    show (a.setFlight k f.cut).held.count loan ≤ a.held.count loan
    omega
  | passes drains => exact leads_of_held drains fun loan => Nat.le_refl _

/-- Queues of idle connections do not get lost. -/
theorem Moves.isSome_idle? (h : a.Moves event b) {uid : String}
    (hsome : (a.world.idle? uid).isSome) : (b.world.idle? uid).isSome := by
  cases h with
  | rests | answers | cuts => exact hsome
  | begins plan => exact (drains_of_plan plan).isSome_idle? hsome
  | goesOn => exact (Task.goes_step _ _ _ _).isSome_idle? hsome
  | passes drains => exact drains.isSome_idle? hsome

/-- Every event leaves statements in flight sound. -/
theorem Sound.moves (h : a.Sound) (hmoves : a.Moves event b) : b.Sound := by
  have hledger := (h.leads hmoves).sound h.ledger
  have hkeeps : ∀ f ∈ a.flights, f.Sound b.world := fun f hf =>
    (h.flights f hf).keep fun uid => hmoves.isSome_idle?
  cases hmoves with
  | rests => exact h
  | @begins e s maxRows w p plan =>
    obtain rfl : a.world.draw.2 = w := congrArg Prod.snd plan
    refine ⟨h.agrees.of_uses (Repository.Uses.refl _) rfl, hledger, fun f hf => ?_⟩
    rcases List.mem_append.1 hf with hf | hf
    · exact hkeeps f hf
    · obtain rfl := List.mem_singleton.1 hf
      exact Flight.sound_of_tasksFor _ rfl rfl
  | @goesOn k i f t flight task =>
    refine ⟨h.agrees.of_uses (t.uses_step a.world f.kind f.retry) rfl, hledger, ?_⟩
    have hf := h.flights f (List.mem_of_getElem? flight)
    exact forall_mem_set hkeeps (hf.goOn h.agrees.coherent task)
  | @answers k f flight ended =>
    have hf := h.flights f (List.mem_of_getElem? flight)
    exact ⟨h.agrees, hledger, forall_mem_set hkeeps ⟨hf.suits, hf.placed, fun _ => ended⟩⟩
  | @cuts k f flight late =>
    refine ⟨h.agrees.of_uses (Repository.Uses.refl _) rfl, hledger, ?_⟩
    exact forall_mem_set hkeeps (hkeeps f (List.mem_of_getElem? flight)).cut
  | passes drains agrees => exact ⟨agrees h.agrees, hledger, hkeeps⟩

/-- So does every run; connections get no copies in it but by being opened. -/
theorem Sound.after (h : a.Sound) (timeout : Nat) (events : List Event) :
    (a.after timeout events).Sound ∧ a.ledger.Leads (a.after timeout events).ledger := by
  induction events generalizing a with
  | nil => exact ⟨h, .refl _⟩
  | cons event events ih =>
    have hmoves := moves_step timeout a event
    obtain ⟨hsound, hleads⟩ := ih (h.moves hmoves)
    exact ⟨hsound, (h.leads hmoves).trans hleads⟩

end Traffic

end ShardRouting
