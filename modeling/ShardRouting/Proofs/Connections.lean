import Mathlib
import ShardRouting.Proofs.Executions

/-!
# Where connections are

A connection is idle at its datasource, or used by a task, or gone. How many copies of each
connection there are is written down in a ledger, with the number of connections that were opened:
connections are numbered when they are opened, so that a number that was given once does not come
back.

* `Ledger.Leads`: a connection gets another copy only by being opened; `Ledger.Leads.sound` and
  `Ledger.Leads.gone` say what follows.
* `Task.Goes.leads`: the steps of tasks.
* `Task.Goes.placed`: tasks are at datasources that have queues for idle connections.
* `World.Drains`: what health checks do; they open connections of their own, and throw idle ones
  away.
-/

namespace ShardRouting

/-! ### Ledgers -/

/-- How many copies of each connection there are, and how many connections were opened. -/
@[ext]
structure Ledger where
  /-- The copies of a connection. -/
  copies : Loan → Nat
  /-- The connections to a datasource that were opened. -/
  opened : String → Nat

namespace Ledger

/-- There is one copy of a connection at most, and none of one that was not opened. -/
def Sound (l : Ledger) : Prop :=
  ∀ loan, l.copies loan ≤ if loan.number ≤ l.opened loan.uid then 1 else 0

/-- A connection was opened, and is nowhere any more. -/
def Gone (l : Ledger) (loan : Loan) : Prop :=
  l.copies loan = 0 ∧ loan.number ≤ l.opened loan.uid

/-- The ledger with more copies. -/
def add (l : Ledger) (more : Loan → Nat) : Ledger :=
  { l with copies := fun loan => more loan + l.copies loan }

/-- From one ledger to a later one: connections that were opened get no new copies, and each that is
opened gets one. -/
structure Leads (l l' : Ledger) : Prop where
  /-- Connections are opened at most. -/
  opened : ∀ uid, l.opened uid ≤ l'.opened uid
  /-- What was opened before gets no new copies. -/
  old : ∀ loan, loan.number ≤ l.opened loan.uid → l'.copies loan ≤ l.copies loan
  /-- What is opened in between gets one. -/
  new : ∀ loan, l.opened loan.uid < loan.number →
    l'.copies loan ≤ l.copies loan + if loan.number ≤ l'.opened loan.uid then 1 else 0

variable {l l' l'' : Ledger} {loan : Loan}

theorem leads_of_le (hopened : ∀ uid, l.opened uid ≤ l'.opened uid)
    (hcopies : ∀ loan, l'.copies loan ≤ l.copies loan) : l.Leads l' :=
  ⟨hopened, fun loan _ => hcopies loan, fun loan _ => Nat.le_add_right_of_le (hcopies loan)⟩

theorem Leads.refl (l : Ledger) : l.Leads l :=
  leads_of_le (fun _ => Nat.le_refl _) fun _ => Nat.le_refl _

theorem Leads.trans (h : l.Leads l') (h' : l'.Leads l'') : l.Leads l'' := by
  refine ⟨fun uid => (h.opened uid).trans (h'.opened uid), fun loan hold => ?_, fun loan hnew => ?_⟩
  · exact (h'.old loan (hold.trans (h.opened loan.uid))).trans (h.old loan hold)
  · have hbefore := h.new loan hnew
    have hopened := h'.opened loan.uid
    by_cases hmid : loan.number ≤ l'.opened loan.uid
    · have hafter := h'.old loan hmid
      rw [if_pos hmid] at hbefore
      rw [if_pos (hmid.trans hopened)]
      omega
    · have hafter := h'.new loan (Nat.lt_of_not_le hmid)
      rw [if_neg hmid] at hbefore
      omega

/-- Only what comes and what goes matters. -/
theorem Leads.congr (h : l.Leads l') {m m' : Ledger} (hopened : m.opened = l.opened)
    (hopened' : m'.opened = l'.opened)
    (hcopies : ∀ loan, m'.copies loan + l.copies loan = m.copies loan + l'.copies loan) :
    m.Leads m' := by
  refine ⟨fun uid => ?_, fun loan hold => ?_, fun loan hnew => ?_⟩
  · rw [hopened, hopened']
    exact h.opened uid
  · rw [hopened] at hold
    have hle := h.old loan hold
    have hsum := hcopies loan
    omega
  · rw [hopened] at hnew
    have hle := h.new loan hnew
    have hsum := hcopies loan
    rw [hopened']
    omega

theorem Leads.sound (h : l.Leads l') (hl : l.Sound) : l'.Sound := by
  intro loan
  have hbefore := hl loan
  have hopened := h.opened loan.uid
  by_cases hold : loan.number ≤ l.opened loan.uid
  · have hle := h.old loan hold
    rw [if_pos hold] at hbefore
    rw [if_pos (hold.trans hopened)]
    omega
  · have hle := h.new loan (Nat.lt_of_not_le hold)
    rw [if_neg hold] at hbefore
    omega

/-- What is gone does not come back. -/
theorem Leads.gone (h : l.Leads l') (hgone : l.Gone loan) : l'.Gone loan :=
  ⟨Nat.eq_zero_of_le_zero (hgone.1 ▸ h.old loan hgone.2), hgone.2.trans (h.opened loan.uid)⟩

/-- A copy is one of a connection that was opened. -/
theorem Sound.le_opened (h : l.Sound) (hcopy : 0 < l.copies loan) :
    loan.number ≤ l.opened loan.uid := by
  have hle := h loan
  by_contra hnot
  rw [if_neg hnot] at hle
  omega

theorem Sound.le_one (h : l.Sound) (loan : Loan) : l.copies loan ≤ 1 := by
  have hle := h loan
  split at hle <;> omega

end Ledger

/-! ### Idle connections -/

namespace Loan

variable {used loan : Loan}

/-- Connections to one datasource differ by their numbers. -/
theorem count_singleton_of_eq (h : loan.uid = used.uid) :
    [used].count loan = [used.number].count loan.number := by
  obtain ⟨uid, number⟩ := loan
  obtain ⟨uid', number'⟩ := used
  cases h
  simp [List.count_singleton]

theorem count_singleton_of_ne (h : loan.uid ≠ used.uid) : [used].count loan = 0 := by
  have hne : used ≠ loan := fun heq => h (heq ▸ rfl)
  simp [hne]

end Loan

namespace World

variable {w w' : World} {loan used : Loan}

/-- A connection is idle at its datasource. -/
def IsIdle (w : World) (loan : Loan) : Prop :=
  ∃ q, w.idle? loan.uid = some q ∧ loan.number ∈ q.idle

/-- How often a connection is idle at its datasource. -/
def idleCount (w : World) (loan : Loan) : Nat :=
  (w.idle? loan.uid).elim 0 fun q => q.idle.count loan.number

theorem idleCount_pos : 0 < w.idleCount loan ↔ w.IsIdle loan := by
  unfold idleCount IsIdle
  cases w.idle? loan.uid with
  | none => simp
  | some q => simp [List.count_pos_iff]

/-- The ledger of the idle connections. -/
def ledger (w : World) : Ledger :=
  ⟨w.idleCount, w.opened⟩

theorem Stays.ledger_eq (h : w.Stays w') : w'.ledger = w.ledger := by
  apply Ledger.ext
  · funext loan
    simp only [ledger, idleCount, h.idle]
  · funext uid
    exact h.opened uid

/-- A connection that is taken is idle once less. -/
theorem Takes.idleCount_add (h : w.Takes used w') (loan : Loan) :
    [used].count loan + w'.idleCount loan = w.idleCount loan := by
  obtain ⟨q, q', hq, htake, hidle⟩ := h.idle
  have hhead : q.idle = used.number :: q'.idle := by
    unfold IdleQueue.take? at htake
    split at htake
    · cases htake
    · next hcons =>
      cases htake
      exact hcons
  rw [idleCount, idleCount, hidle]
  by_cases huid : loan.uid = used.uid
  · rw [if_pos huid, huid, hq, Option.elim_some, Option.elim_some, hhead,
      Loan.count_singleton_of_eq huid, ← List.count_append, List.singleton_append]
  · rw [if_neg huid, Loan.count_singleton_of_ne huid, Nat.zero_add]

/-- A connection that is given back is idle once more at most. -/
theorem Returns.idleCount_le (h : w.Returns used w') (loan : Loan) :
    w'.idleCount loan ≤ [used].count loan + w.idleCount loan := by
  rw [idleCount, idleCount, h.idle]
  by_cases huid : loan.uid = used.uid
  · rw [if_pos huid]
    cases w.idle? loan.uid with
    | none => exact Nat.zero_le _
    | some q =>
      rw [Option.map_some, Option.elim_some, Option.elim_some, Loan.count_singleton_of_eq huid,
        IdleQueue.put]
      split
      · rw [List.count_append, Nat.add_comm]
      · exact Nat.le_add_left _ _
  · rw [if_neg huid]
    exact Nat.le_add_left _ _

/-- A connection that is opened is one that was not there before. -/
theorem Opens.leads (h : w.Opens used w') :
    w.ledger.Leads (w'.ledger.add fun loan => [used].count loan) := by
  have hidle : w'.idleCount = w.idleCount := by
    funext loan
    simp only [idleCount, h.idle]
  constructor
  case opened =>
    intro uid
    show w.opened uid ≤ w'.opened uid
    rw [h.opened]
    split
    · next huid => exact huid ▸ h.number ▸ Nat.le_succ _
    · exact Nat.le_refl _
  case old =>
    intro loan hold
    have hne : used ≠ loan := by
      rintro rfl
      exact absurd (h.number ▸ hold) (Nat.not_succ_le_self _)
    show [used].count loan + w'.idleCount loan ≤ w.idleCount loan
    rw [hidle, List.count_eq_zero.2 (by simpa using hne.symm), Nat.zero_add]
  case new =>
    intro loan hnew
    show [used].count loan + w'.idleCount loan ≤
      w.idleCount loan + if loan.number ≤ w'.opened loan.uid then 1 else 0
    rw [hidle, Nat.add_comm]
    refine Nat.add_le_add_left ?_ _
    by_cases hne : used = loan
    · subst hne
      rw [List.count_singleton_self, h.opened, if_pos rfl, if_pos (Nat.le_refl _)]
    · rw [List.count_eq_zero.2 (by simpa using Ne.symm hne)]
      exact Nat.zero_le _

end World

/-! ### Tasks -/

namespace Task

variable {t : Task} {w : World} {kind : StatementKind} {retry : Nat} {r : Task × World}

/-- The ledger of a task and the idle connections. -/
def ledger (t : Task) (w : World) : Ledger :=
  w.ledger.add fun loan => t.loan?.toList.count loan

theorem loan?_of_isSeeking (h : t.IsSeeking) : t.loan? = none := by
  rcases h with h | ⟨uid, s, h⟩ <;> rw [loan?, h]

theorem loan?_of_isFinished (h : t.isFinished = true) : t.loan? = none := by
  unfold isFinished at h
  unfold loan?
  split at h
  · next hp => rw [hp]
  · cases h

/-- A task that has got a connection uses it, if it has something to do. -/
theorem loan?_begin (hcalls : t.work.calls w.style ≠ []) (loan : Loan) :
    ({ t with phase := begin w t.work loan } : Task).loan? = some loan := by
  unfold loan? begin
  cases hc : t.work.calls w.style with
  | nil => exact absurd hc hcalls
  | cons call more => rfl

/-- A step of a task gives a copy to a connection only if it opens it. -/
theorem Goes.leads (h : t.Goes w kind retry r) (hcalls : t.work.calls w.style ≠ []) :
    (t.ledger w).Leads (r.1.ledger r.2) := by
  cases h with
  | rests => exact .refl _
  | waits seeking stays | fails seeking stays =>
    rw [ledger, ledger, stays.ledger_eq, loan?_of_isSeeking seeking]
    exact .refl _
  | takes seeking takes =>
    rw [← takes.style] at hcalls
    refine Ledger.leads_of_le (fun uid => (takes.opened uid).ge) fun loan => ?_
    simp only [ledger, Ledger.add, loan?_begin hcalls, loan?_of_isSeeking seeking]
    have hcount := takes.idleCount_add loan
    simp only [World.ledger, Option.toList_some, Option.toList_none, List.count_nil]
    omega
  | opens phase opens =>
    rw [← opens.style] at hcalls
    have hnone := loan?_of_isSeeking (Or.inr ⟨_, _, phase⟩)
    have hbefore : t.ledger w = w.ledger := by
      apply Ledger.ext
      · funext loan
        simp only [ledger, Ledger.add, hnone, Option.toList_none, List.count_nil, Nat.zero_add]
      · rfl
    rw [hbefore, ledger, loan?_begin hcalls, Option.toList_some]
    exact opens.leads
  | calls phase stays =>
    rw [ledger, ledger, stays.ledger_eq, loan?, loan?, phase]
    exact .refl _
  | succeeds phase fits returns | refused phase harmless returns =>
    refine Ledger.leads_of_le (fun uid => (returns.opened uid).ge) fun loan => ?_
    have hcount := returns.idleCount_le loan
    simp only [ledger, Ledger.add, loan?, phase, World.ledger, Option.toList_some,
      Option.toList_none, List.count_nil]
    omega
  | breaks phase fatal stays =>
    rw [ledger, ledger, stays.ledger_eq]
    refine Ledger.leads_of_le (fun uid => Nat.le_refl _) fun loan => ?_
    simp only [Ledger.add, loan?, phase, Option.toList_none, List.count_nil]
    omega

/-- The datasource that a task waits for or works at. -/
def datasource? (t : Task) : Option String :=
  match t.phase with
  | .opening uid _ => some uid
  | .calling loan .. => some loan.uid
  | .queued | .finished _ => none

theorem datasource?_of_loan? {loan : Loan} (h : t.loan? = some loan) :
    t.datasource? = some loan.uid := by
  unfold loan? at h
  unfold datasource?
  split at h
  · next hp =>
    obtain rfl := Option.some.inj h
    rw [hp]
  · cases h

/-- The datasource of a task has a queue for idle connections. -/
def Placed (t : Task) (w : World) : Prop :=
  ∀ uid, t.datasource? = some uid → (w.idle? uid).isSome

/-- Queues of idle connections do not get lost. -/
theorem Goes.isSome_idle? (h : t.Goes w kind retry r) {uid : String}
    (hsome : (w.idle? uid).isSome) : (r.2.idle? uid).isSome := by
  cases h with
  | rests => exact hsome
  | waits _ stays | fails _ stays | calls _ stays | breaks _ _ stays => rwa [stays.idle]
  | takes _ takes =>
    obtain ⟨q, q', -, -, hidle⟩ := takes.idle
    rw [hidle]
    split
    · rfl
    · exact hsome
  | opens _ opens => rwa [opens.idle]
  | succeeds _ _ returns | refused _ _ returns =>
    rw [returns.idle]
    split
    · rwa [Option.isSome_map]
    · exact hsome

theorem datasource?_begin {uid : String} {loan : Loan}
    (h : ({ t with phase := begin w t.work loan } : Task).datasource? = some uid) :
    loan.uid = uid := by
  unfold datasource? begin at h
  cases hcalls : t.work.calls w.style with
  | nil =>
    rw [hcalls] at h
    cases h
  | cons call more =>
    rw [hcalls] at h
    exact Option.some.inj h

/-- A task stays at datasources that have queues. -/
theorem Goes.placed (h : t.Goes w kind retry r) (hcoherent : w.repository.Coherent)
    (hplaced : t.Placed w) : r.1.Placed r.2 := by
  intro uid huid
  have hkeeps : (w.idle? uid).isSome → (r.2.idle? uid).isSome := h.isSome_idle?
  cases h with
  | rests => exact hplaced uid huid
  | waits _ stays _ knows =>
    obtain rfl := Option.some.inj huid
    apply hkeeps
    rw [World.idle?, Repository.idle?, Option.isSome_map]
    exact Repository.knows_iff.1 (knows hcoherent)
  | fails | succeeds | refused | breaks => cases huid
  | takes _ takes =>
    obtain ⟨q, q', hq, -, -⟩ := takes.idle
    apply hkeeps
    rw [← datasource?_begin huid, hq]
    rfl
  | opens phase =>
    apply hkeeps
    rw [← datasource?_begin huid]
    exact hplaced _ (by rw [datasource?, phase])
  | calls phase =>
    apply hkeeps
    obtain rfl := Option.some.inj huid
    exact hplaced _ (by rw [datasource?, phase])

end Task

/-! ### Repositories that are built -/

namespace Repository

section Build

variable {declared : List DatasourceSettings} {shard : String} {built ds : List Datasource}
  {members : List MemberSettings} {shards : List ShardSettings} {settings : Settings}
  {r r' : Repository}

theorem idle_of_addMembers (hbuilt : ∀ d ∈ built, d.idle.idle = [])
    (h : addMembers declared shard built members = .ok ds) : ∀ d ∈ ds, d.idle.idle = [] := by
  induction members generalizing built with
  | nil =>
    cases h
    exact hbuilt
  | cons m members ih =>
    rw [addMembers] at h
    split at h
    · cases h
    · split at h
      · cases h
      · refine ih (fun d hd => ?_) h
        rcases List.mem_append.1 hd with hd | hd
        · exact hbuilt d hd
        · obtain rfl := List.mem_singleton.1 hd
          rfl

theorem idle_of_addShards (hr : ∀ d ∈ r.datasources, d.idle.idle = [])
    (h : addShards declared r shards = .ok r') : ∀ d ∈ r'.datasources, d.idle.idle = [] := by
  induction shards generalizing r with
  | nil =>
    cases h
    exact hr
  | cons x shards ih =>
    obtain ⟨ds, hds, h⟩ := bind_eq_ok_iff.1 h
    obtain ⟨s, -, h⟩ := bind_eq_ok_iff.1 h
    split at h
    · cases h
    · exact ih (idle_of_addMembers hr hds) h

/-- In a repository that is built nothing is idle yet. -/
theorem idle_of_build (h : build settings = .ok r) : ∀ d ∈ r.datasources, d.idle.idle = [] := by
  unfold build at h
  split at h
  · cases h
  · exact idle_of_addShards (fun d hd => absurd hd List.not_mem_nil) h

end Build

/-! ### Health checks -/

/-- A datasource that goes out of use loses its idle connections, and no other does. -/
theorem idle?_demote (r : Repository) (uid v : String) : (r.demote uid).2.idle? v = r.idle? v ∨
    (r.demote uid).2.idle? v = (r.idle? v).map IdleQueue.clear := by
  have hclear : (r.mapDatasource uid fun d => { d with idle := d.idle.clear }).idle? v =
      r.idle? v ∨ (r.mapDatasource uid fun d => { d with idle := d.idle.clear }).idle? v =
        (r.idle? v).map IdleQueue.clear := by
    rw [r.idle?_mapDatasource_idle IdleQueue.clear uid v]
    split
    · exact Or.inr rfl
    · exact Or.inl rfl
  unfold demote
  split
  · exact Or.inl rfl
  · simp only
    split <;> exact hclear

theorem idle?_wake (r : Repository) (uid v : String) : (r.wake uid).2.idle? v = r.idle? v := by
  have hforget := idle?_mapDatasource (f := fun d => { d with failures := 0 }) (fun _ => rfl)
    (fun _ => rfl) r uid v
  unfold wake
  split
  · rfl
  · simp only
    split <;> exact hforget

end Repository

namespace World

variable {w w' w'' : World}

/-- Connections were opened that nobody uses, or thrown away while they were idle. -/
structure Drains (w w' : World) : Prop where
  /-- The connections to a datasource that were idle are idle still, or all gone. -/
  idle : ∀ uid, w'.idle? uid = w.idle? uid ∨ w'.idle? uid = (w.idle? uid).map IdleQueue.clear
  /-- Connections may have been opened. -/
  opened : ∀ uid, w.opened uid ≤ w'.opened uid

theorem Stays.drains (h : w.Stays w') : w.Drains w' :=
  ⟨fun uid => Or.inl (h.idle uid), fun uid => (h.opened uid).ge⟩

theorem Drains.refl (w : World) : w.Drains w :=
  (Stays.refl w).drains

theorem Drains.trans (h : w.Drains w') (h' : w'.Drains w'') : w.Drains w'' := by
  refine ⟨fun uid => ?_, fun uid => (h.opened uid).trans (h'.opened uid)⟩
  rcases h'.idle uid with hidle' | hidle' <;> rcases h.idle uid with hidle | hidle <;>
    rw [hidle', hidle]
  · exact Or.inl rfl
  · exact Or.inr rfl
  · exact Or.inr rfl
  · rw [Option.map_map]
    exact Or.inr rfl

theorem Drains.idleCount_le (h : w.Drains w') (loan : Loan) :
    w'.idleCount loan ≤ w.idleCount loan := by
  unfold idleCount
  rcases h.idle loan.uid with hidle | hidle
  · rw [hidle]
  · rw [hidle]
    cases w.idle? loan.uid with
    | none => exact Nat.le_refl _
    | some q => exact Nat.zero_le _

/-- The queues of idle connections do not get lost. -/
theorem Drains.isSome_idle? (h : w.Drains w') {uid : String} (hsome : (w.idle? uid).isSome) :
    (w'.idle? uid).isSome := by
  rcases h.idle uid with hidle | hidle
  · rwa [hidle]
  · rwa [hidle, Option.isSome_map]

theorem drains_of_datasources (hdatasources : w'.repository.datasources = w.repository.datasources)
    (hbackends : w'.backends = w.backends) : w.Drains w' := by
  refine ⟨fun uid => Or.inl ?_, fun uid => ?_⟩
  · simp only [idle?, Repository.idle?, Repository.datasource?, hdatasources]
  · simp only [World.opened, backend, hbackends, Nat.le_refl]

theorem drains_demote (w : World) (uid : String) :
    w.Drains { w with repository := (w.repository.demote uid).2 } :=
  ⟨w.repository.idle?_demote uid, fun _ => Nat.le_refl _⟩

theorem drains_wake (w : World) (uid : String) :
    w.Drains { w with repository := (w.repository.wake uid).2 } :=
  ⟨fun v => Or.inl (w.repository.idle?_wake uid v), fun _ => Nat.le_refl _⟩

/-- Another way to answer opens no connection. -/
theorem drains_setBehaviour (w : World) (uid : String) (b : Behaviour) :
    w.Drains (w.setBehaviour uid b) := by
  refine ⟨fun _ => Or.inl rfl, fun v => ?_⟩
  rw [World.opened, World.opened, setBehaviour, backend_setBackend]
  split
  · next h => exact h ▸ Nat.le_refl _
  · exact Nat.le_refl _

theorem drains_openConnection (w : World) (uid : String) :
    w.Drains (w.openConnection uid).2 := by
  cases hopen : w.openConnection uid with
  | mk opened w' =>
    cases opened with
    | error e =>
      obtain ⟨rfl, -⟩ := openConnection_eq_error hopen
      exact .refl _
    | ok number =>
      have hopens := opens_openConnection hopen
      refine ⟨fun v => Or.inl (hopens.idle v), fun v => ?_⟩
      show w.opened v ≤ w'.opened v
      rw [hopens.opened]
      split
      · next hv => exact hv ▸ hopens.number ▸ Nat.le_succ _
      · exact Nat.le_refl _

theorem stays_probe (w : World) (d : Datasource) (number : Nat) :
    w.Stays (w.probe d number).2 := by
  unfold probe
  simp only
  split
  · split <;> exact stays_of_eq rfl rfl rfl
  · next query _ _ =>
    have hcall := w.stays_call ⟨d.uid, number⟩ .query query [[]]
    split
    · next h =>
      rw [h] at hcall
      exact hcall
    · next h =>
      rw [h] at hcall
      exact hcall
  · exact .refl w

/-- A validation uses a connection of its own. -/
theorem drains_validate (w : World) (d : Datasource) (timeout : Nat) :
    w.Drains (w.validate d timeout).2.2 := by
  have hopen := w.drains_openConnection d.uid
  simp only [validate]
  split
  · exact .refl w
  · split
    · next h =>
      rw [h] at hopen
      exact hopen
    · next number w' h =>
      rw [h] at hopen
      split
      · exact hopen
      · exact hopen.trans (w'.stays_probe d number).drains

theorem drains_checkOne (timeout : Nat) (p : Monitor.Progress) (uid : String) :
    p.world.Drains (Monitor.checkOne timeout p uid).world := by
  unfold Monitor.checkOne
  split
  · exact .refl _
  · next d _ =>
    have hvalidate := p.world.drains_validate d timeout
    simp only
    split
    · exact hvalidate.trans (drains_wake _ uid)
    · exact hvalidate

theorem drains_takeReport (p : Monitor.Progress) (uid : String) (rest : List String) :
    p.world.Drains (Operation.takeReport p uid rest).world := by
  have hreports : p.world.Drains
      { p.world with repository := { p.world.repository with reports := rest } } :=
    drains_of_datasources rfl rfl
  unfold Operation.takeReport
  simp only [Monitor.demoteAll]
  split
  · exact hreports
  · exact hreports.trans (drains_demote _ uid)

/-- The steps of a monitor take no connection from a queue but to throw it away. -/
theorem drains_monitorStep (timeout : Nat) (o : Operation) :
    o.world.Drains (o.monitorStep timeout).world := by
  unfold Operation.monitorStep
  split
  · exact .refl _
  · split
    · exact drains_takeReport _ _ _
    · exact .refl _
  · exact drains_checkOne timeout _ _
  · exact .refl _

end World

end ShardRouting
