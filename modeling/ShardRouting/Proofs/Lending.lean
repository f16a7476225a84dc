import Mathlib
import ShardRouting.Proofs.Traffic

/-!
# What becomes of connections

A connection belongs to the task that uses it. When the task ends, its connection goes back to its
datasource, unless the error was fatal; when the statement is cut, it does not. What does not go
back is lost: no other task gets it, whatever happens later.

* `Traffic.Lost` and `Traffic.Sound.lost`: connections that are never used again.
* `Traffic.Fate` and `Traffic.Sound.fate`: a connection whose task takes a step.
* `Traffic.Moves.turns`: what an event makes of a statement; `Traffic.Sound.rests`: nothing, once it
  has answered.
* `Traffic.lending`: all of this for every run.
-/

namespace ShardRouting

namespace Traffic

variable {timeout : Nat} {a b : Traffic} {k i : Nat} {f f' : Flight} {t : Task} {event : Event}
  {loan : Loan}

/-! ### Lost connections -/

/-- A connection is neither used nor idle, and never will be again. -/
def Lost (timeout : Nat) (a : Traffic) (loan : Loan) : Prop :=
  ∀ events, loan ∉ (a.after timeout events).held ∧ ¬ (a.after timeout events).world.IsIdle loan

/-- A connection has no copies exactly if it is neither used nor idle. -/
theorem copies_eq_zero_iff :
    a.ledger.copies loan = 0 ↔ loan ∉ a.held ∧ ¬ a.world.IsIdle loan := by
  rw [copies_ledger, ← World.idleCount_pos, ← List.count_eq_zero]
  omega

theorem Sound.lost (h : a.Sound) (hgone : a.ledger.Gone loan) : a.Lost timeout loan := fun events =>
  copies_eq_zero_iff.1 ((h.after timeout events).2.gone hgone).1

/-- A connection that is used is idle nowhere, and nobody else uses it. -/
theorem Sound.count_of_mem (h : a.Sound) (hmem : loan ∈ a.held) :
    a.held.count loan = 1 ∧ a.world.idleCount loan = 0 := by
  have hpos := List.count_pos_iff.2 hmem
  have hle := h.ledger.le_one loan
  rw [copies_ledger] at hle
  omega

/-- A connection that is used, and then used less often and idle as little, is gone. -/
theorem Sound.gone (h : a.Sound) (hmem : loan ∈ a.held)
    (hheld : b.held.count loan + 1 ≤ a.held.count loan)
    (hidle : b.world.idle? loan.uid = a.world.idle? loan.uid)
    (hopened : a.world.opened loan.uid ≤ b.world.opened loan.uid) : b.ledger.Gone loan := by
  obtain ⟨hcount, hcountIdle⟩ := h.count_of_mem hmem
  have hcopies : b.ledger.copies loan = 0 := by
    rw [copies_ledger]
    rw [World.idleCount, ← hidle, ← World.idleCount] at hcountIdle
    omega
  have hpos : 0 < a.ledger.copies loan := by
    rw [copies_ledger]
    omega
  exact ⟨hcopies, (h.ledger.le_opened hpos).trans hopened⟩

theorem mem_loans (ht : f.tasks[i]? = some t) (hloan : t.loan? = some loan) : loan ∈ f.loans := by
  refine List.mem_flatMap.2 ⟨t, List.mem_of_getElem? ht, ?_⟩
  rw [hloan]
  exact List.mem_singleton_self loan

theorem mem_held (hf : a.flights[k]? = some f) (ht : f.tasks[i]? = some t)
    (hloan : t.loan? = some loan) : loan ∈ a.held :=
  List.mem_flatMap.2 ⟨f, List.mem_of_getElem? hf, mem_loans ht hloan⟩

/-- A task that uses its connection no more while that does not become idle loses it. -/
theorem Sound.lost_of_setTask (h : a.Sound) (hf : a.flights[k]? = some f)
    (ht : f.tasks[i]? = some t) (hloan : t.loan? = some loan) {t' : Task} {w : World}
    (hb : b = (a.withWorld w).setFlight k { f with tasks := f.tasks.set i t' }) (hsound : b.Sound)
    (hnone : t'.loan? = none) (hidle : w.idle? loan.uid = a.world.idle? loan.uid)
    (hopened : w.opened loan.uid = a.world.opened loan.uid) : b.Lost timeout loan := by
  refine hsound.lost (h.gone (mem_held hf ht hloan) ?_ (hb ▸ hidle) (hb ▸ hopened.ge))
  have hcount := count_held_setTask (a := a.withWorld w) hf ht t' loan
  rw [hnone, hloan, Option.toList_some, Option.toList_none, List.count_nil,
    List.count_singleton_self, ← hb] at hcount
  exact hcount.le

/-- A statement that is cut loses the connections that its tasks use. -/
theorem Sound.lost_of_cut (h : a.Sound) (hf : a.flights[k]? = some f) (ht : f.tasks[i]? = some t)
    (hloan : t.loan? = some loan) : (a.step timeout (.deadline k)).Lost timeout loan := by
  have hsound := h.moves (moves_step timeout a (.deadline k))
  have hlate : f.answered = false := by
    by_contra hanswered
    have hend := (h.flights f (List.mem_of_getElem? hf)).answered (Bool.of_not_eq_false hanswered) t
      (List.mem_of_getElem? ht)
    rw [Task.loan?_of_isFinished hend] at hloan
    cases hloan
  have hstep : a.step timeout (.deadline k) =
      (a.withWorld (a.world.count (.timedOut f.kind))).setFlight k f.cut := by
    simp only [step, hf, hlate, Bool.false_eq_true, if_false]
  refine hsound.lost (h.gone (mem_held hf ht hloan) ?_ ?_ ?_)
  · have hpos := List.count_pos_iff.2 (mem_loans ht hloan)
    have hcount := count_held_setFlight hf f.cut loan
    rw [f.loans_cut, List.count_nil] at hcount
    rw [hstep]
    show (a.setFlight k f.cut).held.count loan + 1 ≤ a.held.count loan
    omega
  · rw [hstep]
    rfl
  · rw [hstep]
    exact Nat.le_refl _

/-! ### Steps of tasks -/

/-- A connection was given back to its datasource: it is idle there again, or the queue was full,
and it is lost. Other datasources have nothing of it. -/
structure Released (timeout : Nat) (a b : Traffic) (loan : Loan) : Prop where
  /-- It is the last in the queue of its datasource, or had no room. -/
  back : ∃ q, a.world.idle? loan.uid = some q ∧
    (q.idle.length < q.capacity ∧
        b.world.idle? loan.uid = some { q with idle := q.idle ++ [loan.number] } ∨
      q.capacity ≤ q.idle.length ∧ b.world.idle? loan.uid = some q ∧ b.Lost timeout loan)
  /-- The queues of other datasources are as before. -/
  elsewhere : ∀ uid, uid ≠ loan.uid → b.world.idle? uid = a.world.idle? uid

/-- What becomes of the connection of a task that takes a step. -/
inductive Fate (timeout : Nat) (a b : Traffic) (t t' : Task) (loan : Loan) : Prop where
  /-- It is used still. -/
  | used (calls : t'.loan? = some loan)
  /-- The task has ended with an output, and gives it back. -/
  | succeeded {o : Output} (ended : t'.phase = .finished (.ok o))
      (released : Released timeout a b loan)
  /-- The task has ended with an error that is not fatal, and gives it back. -/
  | refused {e : SqlError} (ended : t'.phase = .finished (.error (.fragment t.shard t.work.sql e)))
      (harmless : a.world.repository.isFatal loan.uid e = false)
      (released : Released timeout a b loan)
  /-- The task has ended with a fatal error, and it is lost. -/
  | broken {e : SqlError} (ended : t'.phase = .finished (.error (.fragment t.shard t.work.sql e)))
      (fatal : a.world.repository.isFatal loan.uid e = true) (lost : b.Lost timeout loan)

theorem Sound.released (h : a.Sound) (hf : a.flights[k]? = some f) (ht : f.tasks[i]? = some t)
    (hloan : t.loan? = some loan) {t' : Task} {w : World}
    (hb : b = (a.withWorld w).setFlight k { f with tasks := f.tasks.set i t' }) (hsound : b.Sound)
    (hnone : t'.loan? = none) (hreturns : a.world.Returns loan w) : Released timeout a b loan := by
  have hplaced := (h.flights f (List.mem_of_getElem? hf)).placed t (List.mem_of_getElem? ht)
  obtain ⟨q, hq⟩ := Option.isSome_iff_exists.1 (hplaced _ (Task.datasource?_of_loan? hloan))
  have hback : w.idle? loan.uid = some (q.put loan.number) := by
    rw [hreturns.idle, if_pos rfl, hq, Option.map_some]
  refine ⟨⟨q, hq, ?_⟩, fun uid hne => ?_⟩
  · by_cases hroom : q.idle.length < q.capacity
    · rw [IdleQueue.put, if_pos hroom] at hback
      exact Or.inl ⟨hroom, hb ▸ hback⟩
    · have hfull := Nat.le_of_not_lt hroom
      rw [IdleQueue.put_of_full hfull] at hback
      exact Or.inr ⟨hfull, hb ▸ hback, h.lost_of_setTask hf ht hloan hb hsound hnone
        (hback.trans hq.symm) (hreturns.opened _)⟩
  · have hsame : w.idle? uid = a.world.idle? uid := by rw [hreturns.idle, if_neg hne]
    exact hb ▸ hsame

theorem Sound.fate (h : a.Sound) (hf : a.flights[k]? = some f) (ht : f.tasks[i]? = some t)
    (hloan : t.loan? = some loan) :
    Fate timeout a (a.step timeout (.goOn k i)) t (t.step a.world f.kind f.retry).1 loan := by
  have hsound := h.moves (moves_step timeout a (.goOn k i))
  have hb : a.step timeout (.goOn k i) = _ := step_goOn hf ht
  have hgoes := t.goes_step a.world f.kind f.retry
  have hnot : ¬ t.IsSeeking := fun hseeking => by
    rw [Task.loan?_of_isSeeking hseeking] at hloan
    cases hloan
  have hsame : ∀ {loan' call params more changed},
      t.phase = .calling loan' call params more changed → loan' = loan := fun hphase => by
    rw [Task.loan?, hphase] at hloan
    exact Option.some.inj hloan
  generalize a.step timeout (.goOn k i) = b at hsound hb ⊢
  generalize t.step a.world f.kind f.retry = r at hb hgoes ⊢
  cases hgoes with
  | rests ended =>
    rw [Task.loan?_of_isFinished ended] at hloan
    cases hloan
  | waits seeking | fails seeking | takes seeking => exact absurd seeking hnot
  | opens phase => exact absurd (Or.inr ⟨_, _, phase⟩) hnot
  | calls phase =>
    obtain rfl := hsame phase
    exact .used rfl
  | succeeds phase fits returns =>
    obtain rfl := hsame phase
    exact .succeeded rfl (h.released hf ht hloan hb hsound rfl returns)
  | refused phase harmless returns =>
    obtain rfl := hsame phase
    exact .refused rfl harmless (h.released hf ht hloan hb hsound rfl returns)
  | breaks phase fatal stays =>
    obtain rfl := hsame phase
    exact .broken rfl fatal
      (h.lost_of_setTask hf ht hloan hb hsound rfl (stays.idle _) (stays.opened _))

/-! ### Statements among events -/

/-- What an event makes of a statement. -/
inductive Turns (a : Traffic) (k : Nat) (f : Flight) : Event → Flight → Prop where
  /-- Nothing. -/
  | stays {event : Event} : Turns a k f event f
  /-- One of its tasks takes a step. -/
  | goesOn {i : Nat} {t : Task} (task : f.tasks[i]? = some t) :
      Turns a k f (.goOn k i) { f with tasks := f.tasks.set i (t.step a.world f.kind f.retry).1 }
  /-- It answers. -/
  | answers : Turns a k f (.answer k) { f with answered := true }
  /-- It is cut. -/
  | cuts (late : f.answered = false) : Turns a k f (.deadline k) f.cut

theorem getElem?_setFlight (hf : a.flights[k]? = some f) (n : Nat) (f' : Flight) :
    (a.setFlight n f').flights[k]? = some (if n = k then f' else f) := by
  obtain ⟨hlt, rfl⟩ := List.getElem?_eq_some_iff.1 hf
  unfold setFlight
  rw [List.getElem?_set]
  split
  · next heq => rw [if_pos (heq ▸ hlt)]
  · exact List.getElem?_eq_getElem hlt

theorem Moves.turns (h : a.Moves event b) (hf : a.flights[k]? = some f) :
    ∃ f', b.flights[k]? = some f' ∧ a.Turns k f event f' := by
  cases h with
  | rests | passes => exact ⟨f, hf, .stays⟩
  | begins =>
    obtain ⟨hlt, -⟩ := List.getElem?_eq_some_iff.1 hf
    exact ⟨f, (List.getElem?_append_left hlt).trans hf, .stays⟩
  | @goesOn n i g t flight task =>
    refine ⟨_, getElem?_setFlight (a := a.withWorld _) hf n _, ?_⟩
    split
    · next heq =>
      subst heq
      obtain rfl := Option.some.inj (flight.symm.trans hf)
      exact .goesOn task
    · exact .stays
  | @answers n g flight ended =>
    refine ⟨_, getElem?_setFlight hf n _, ?_⟩
    split
    · next heq =>
      subst heq
      obtain rfl := Option.some.inj (flight.symm.trans hf)
      exact .answers
    · exact .stays
  | @cuts n g flight late =>
    refine ⟨_, getElem?_setFlight (a := a.withWorld _) hf n _, ?_⟩
    split
    · next heq =>
      subst heq
      obtain rfl := Option.some.inj (flight.symm.trans hf)
      exact .cuts late
    · exact .stays

/-- Only its own step and the deadline of its statement change a task that uses a connection. -/
theorem Turns.task (h : a.Turns k f event f') (ht : f.tasks[i]? = some t)
    (hstep : event ≠ .goOn k i) (hdeadline : event ≠ .deadline k) : f'.tasks[i]? = some t := by
  cases h with
  | stays | answers => exact ht
  | @goesOn j u task =>
    have hne : j ≠ i := fun heq => hstep (heq ▸ rfl)
    rw [List.getElem?_set_ne hne]
    exact ht
  | cuts => exact absurd rfl hdeadline

/-- The steps of a statement that has answered come to nothing. -/
theorem Sound.step_of_answered (h : a.Sound) (hf : a.flights[k]? = some f)
    (hanswered : f.answered = true) (i : Nat) : a.step timeout (.goOn k i) = a := by
  cases ht : f.tasks[i]? with
  | none => exact step_goOn_of_none hf ht
  | some t =>
    have hend := (h.flights f (List.mem_of_getElem? hf)).answered hanswered t
      (List.mem_of_getElem? ht)
    obtain ⟨hlt, rfl⟩ := List.getElem?_eq_some_iff.1 ht
    rw [step_goOn hf ht, Task.step_of_isFinished hend, List.set_getElem_self]
    exact setFlight_self hf

/-- A statement that has answered does not change any more. -/
theorem Sound.flight_of_answered (h : a.Sound) (hmoves : a.Moves event b)
    (hf : a.flights[k]? = some f) (hanswered : f.answered = true) : b.flights[k]? = some f := by
  obtain ⟨f', hf', hturns⟩ := hmoves.turns hf
  cases hturns with
  | stays => exact hf'
  | goesOn task =>
    have hend := (h.flights f (List.mem_of_getElem? hf)).answered hanswered _
      (List.mem_of_getElem? task)
    obtain ⟨hlt, rfl⟩ := List.getElem?_eq_some_iff.1 task
    rw [Task.step_of_isFinished hend, List.set_getElem_self] at hf'
    exact hf'
  | answers =>
    rw [← hanswered] at hf'
    exact hf'
  | cuts late =>
    rw [hanswered] at late
    cases late

theorem Sound.rests (h : a.Sound) (hf : a.flights[k]? = some f) (hanswered : f.answered = true)
    (timeout : Nat) (events : List Event) : (a.after timeout events).flights[k]? = some f := by
  induction events generalizing a with
  | nil => exact hf
  | cons event events ih =>
    have hmoves := moves_step timeout a event
    exact ih (h.moves hmoves) (h.flight_of_answered hmoves hf hanswered)

/-! ### Every run -/

variable {settings : Settings} {w₀ : World} {events : List Event}

/-- Whatever statements run over a repository, and whenever their tasks go on and their deadlines
come: no two tasks use one connection, and none uses an idle one. A connection is used until its
task ends, and is idle at its datasource then, or the queue there was full; after a fatal error, and
if the statement is cut, it is lost. What has answered does nothing any more. The executor runs
statements in one of these ways. -/
theorem lending (hbuild : Repository.build settings = .ok w₀.repository)
    (ha : (start w₀).after timeout events = a) :
    (a.held.Nodup ∧ ∀ loan ∈ a.held, ¬ a.world.IsIdle loan) ∧
    (∀ k f i t loan, a.flights[k]? = some f → f.tasks[i]? = some t → t.loan? = some loan →
      (∃ f' t', (a.step timeout (.goOn k i)).flights[k]? = some f' ∧ f'.tasks[i]? = some t' ∧
        Fate timeout a (a.step timeout (.goOn k i)) t t' loan) ∧
      (a.step timeout (.deadline k)).Lost timeout loan ∧
      ∀ event, event ≠ .goOn k i → event ≠ .deadline k →
        ∃ f', (a.step timeout event).flights[k]? = some f' ∧ f'.tasks[i]? = some t) ∧
    (∀ k f, a.flights[k]? = some f → f.answered = true → ∀ later,
      (a.after timeout later).flights[k]? = some f ∧
      ∀ i, (a.after timeout later).step timeout (.goOn k i) = a.after timeout later) ∧
    (∀ e s, ∃ run, (a.after timeout run).world = (Executor.update e a.world s).2 ∧
      (a.after timeout run).held = a.held) ∧
    ∀ e s maxRows, ∃ run, (a.after timeout run).world = (Executor.query e a.world s maxRows).2 ∧
      (a.after timeout run).held = a.held := by
  obtain ⟨h, -⟩ : a.Sound ∧ _ := ha ▸ (sound_start hbuild).after timeout events
  refine ⟨⟨?_, fun loan hloan => ?_⟩, ?_, ?_, fun e s => ?_, fun e s maxRows => ?_⟩
  · refine List.nodup_iff_count_le_one.2 fun loan => ?_
    have hle := h.ledger.le_one loan
    rw [copies_ledger] at hle
    omega
  · rw [← World.idleCount_pos, (h.count_of_mem hloan).2]
    exact Nat.lt_irrefl 0
  · intro k f i t loan hf ht hloan
    refine ⟨?_, h.lost_of_cut hf ht hloan, fun event hstep hdeadline => ?_⟩
    · obtain ⟨hlt, -⟩ := List.getElem?_eq_some_iff.1 ht
      refine ⟨{ f with tasks := f.tasks.set i (t.step a.world f.kind f.retry).1 }, _, ?_,
        List.getElem?_set_self hlt, h.fate hf ht hloan⟩
      have hflight : (a.withWorld (t.step a.world f.kind f.retry).2).flights[k]? = some f := hf
      rw [step_goOn hf ht, getElem?_setFlight hflight, if_pos rfl]
    · obtain ⟨f', hf', hturns⟩ := (moves_step timeout a event).turns hf
      exact ⟨f', hf', hturns.task ht hstep hdeadline⟩
  · intro k f hf hanswered later
    have hrests := h.rests hf hanswered timeout later
    exact ⟨hrests, (h.after timeout later).1.step_of_answered hrests hanswered⟩
  · rw [Executor.update_eq]
    exact a.exists_run timeout e s _ _ _
  · rw [Executor.query_eq]
    exact a.exists_run timeout e s _ _ _

/-- Two shards with one datasource each. -/
def twoShards : Settings where
  datasources := [{ uid := "d0" }, { uid := "d1" }]
  shards := [{ name := "s0", members := [{ uid := "d0" }] },
    { name := "s1", members := [{ uid := "d1" }] }]

/-- A write on both shards begins, and its first task gets a connection. -/
def firstCall : List Event :=
  [.statement Executor.parityExecutor Executor.parityInsert 0, .goOn 0 0, .goOn 0 0]

/-- If the deadline of the write comes now, its connection is lost. -/
theorem lending_cut : ∃ (w : World) (a : Traffic) (f : Flight) (t : Task),
    Repository.build twoShards = .ok w.repository ∧ (start w).after 1000 firstCall = a ∧
    a.flights[0]? = some f ∧ f.tasks[0]? = some t ∧ t.loan? = some ⟨"d0", 1⟩ ∧
    (a.step 1000 (.deadline 0)).Lost 1000 ⟨"d0", 1⟩ := by
  obtain ⟨w, a, f, t, hbuild, ha, hf, ht, hloan⟩ : ∃ (w : World) (a : Traffic) (f : Flight)
      (t : Task), Repository.build twoShards = .ok w.repository ∧
        (start w).after 1000 firstCall = a ∧ a.flights[0]? = some f ∧ f.tasks[0]? = some t ∧
        t.loan? = some ⟨"d0", 1⟩ :=
    ⟨{ repository := _ }, _, _, _, rfl, rfl, rfl, rfl, rfl⟩
  obtain ⟨-, hfate, -⟩ := lending hbuild ha
  exact ⟨w, a, f, t, hbuild, ha, hf, ht, hloan, (hfate 0 f 0 t _ hf ht hloan).2.1⟩

end Traffic

end ShardRouting
