import ShardRouting.Cluster.Executor
import ShardRouting.Proofs.Acquisition
import ShardRouting.Proofs.Operations

/-!
# What one step of a task can do

A step of a task does at most one thing to the connections behind a repository: it takes one that is
idle, opens one, or gives its own back. Everything else that it does leaves them where they are.

* `World.Stays`, `World.Takes`, `World.Opens`, `World.Returns`: what may happen to connections.
* `World.seeks_seekFrom`: what a search for a connection comes to.
* `Task.Goes` and `Task.goes_step`: all that a step of a task can come to.
* `Task.stepsLeft_lt`: a task that has not ended comes nearer to its end by every step.
-/

namespace ShardRouting

/-! ### Idle connections -/

namespace Repository

variable {r r' : Repository} {uid v : String}

/-- The idle connections of a datasource. -/
def idle? (r : Repository) (uid : String) : Option (IdleQueue Nat) :=
  (r.datasource? uid).map Datasource.idle

theorem idle?_mapDatasource {f : Datasource → Datasource} (hf : ∀ d, (f d).uid = d.uid)
    (hidle : ∀ d, (f d).idle = d.idle) (r : Repository) (uid v : String) :
    (r.mapDatasource uid f).idle? v = r.idle? v :=
  map_datasource?_mapDatasource hf hidle r uid v

/-- A change of the idle connections of a datasource concerns no other. -/
theorem idle?_mapDatasource_idle (r : Repository) (f : IdleQueue Nat → IdleQueue Nat)
    (uid v : String) : (r.mapDatasource uid fun d => { d with idle := f d.idle }).idle? v =
      if v = uid then (r.idle? v).map f else r.idle? v := by
  have hlookup : (r.mapDatasource uid fun d => { d with idle := f d.idle }).datasource? v =
      (r.datasource? v).map fun d => if d.uid == uid then { d with idle := f d.idle } else d := by
    apply find?_key_map
    intro d
    split <;> rfl
  rw [idle?, hlookup, idle?]
  cases hd : r.datasource? v with
  | none => simp
  | some d =>
    have hfound := List.find?_some (p := fun d : Datasource => d.uid == v) hd
    obtain rfl : d.uid = v := beq_iff_eq.1 hfound
    by_cases huid : d.uid = uid <;> simp [huid]

theorem idle?_report (r : Repository) (uid v : String) : (r.report uid).idle? v = r.idle? v := by
  unfold report
  split
  · exact idle?_mapDatasource (f := fun d => { d with failures := d.failures + 1 })
      (fun _ => rfl) (fun _ => rfl) r uid v
  · rfl

theorem idle?_reportIfFatal (r : Repository) (uid : String) (e : SqlError) (v : String) :
    (r.reportIfFatal uid e).idle? v = r.idle? v := by
  unfold reportIfFatal
  split
  · exact idle?_report r uid v
  · rfl

theorem idle?_giveBack (r : Repository) (uid : String) (number : Nat) (v : String) :
    (r.giveBack uid number).idle? v =
      if v = uid then (r.idle? v).map fun q => q.put number else r.idle? v :=
  idle?_mapDatasource_idle r (fun q => q.put number) uid v

/-- What is taken was idle longest, and no other connection is touched. -/
theorem idle?_of_takeIdle? {number : Nat} (h : r.takeIdle? uid = some (number, r')) :
    ∃ q q', r.idle? uid = some q ∧ q.take? = some (number, q') ∧
      ∀ v, r'.idle? v = if v = uid then some q' else r.idle? v := by
  obtain ⟨⟨n, q'⟩, htake, heq⟩ := Option.map_eq_some_iff.1 h
  obtain ⟨d, hd, htake⟩ := Option.bind_eq_some_iff.1 htake
  obtain ⟨rfl, rfl⟩ := Prod.mk.inj heq
  have hidle : r.idle? uid = some d.idle := by rw [idle?, hd, Option.map_some]
  refine ⟨d.idle, q', hidle, htake, fun v => ?_⟩
  rw [idle?_mapDatasource_idle r (fun _ => q') uid v]
  by_cases hv : v = uid
  · rw [if_pos hv, if_pos hv, hv, hidle, Option.map_some]
  · rw [if_neg hv, if_neg hv]

/-- A selection does not touch the datasources. -/
theorem datasources_select {q : ConnectionRequest} {draw : Nat} {given : Option String}
    (h : r.select q draw = .ok (given, r')) : r'.datasources = r.datasources := by
  obtain ⟨s, -, h⟩ := bind_eq_ok_iff.1 h
  split at h
  · cases h
    rfl
  · cases h
    rfl

theorem selector_eq_error {shard : String} {f : SettingsFault} (h : r.selector shard = .error f) :
    f = .noSuchShard shard := by
  unfold selector at h
  split at h
  · cases h
  · exact (Except.error.inj h).symm

/-- A selection for a shard that is there does not fail. -/
theorem select_eq_error {q : ConnectionRequest} {draw : Nat} {f : SettingsFault}
    (h : r.select q draw = .error f) : f = .noSuchShard q.shard := by
  unfold select at h
  cases hs : r.selector q.shard with
  | error f' =>
    rw [hs] at h
    cases h
    exact selector_eq_error hs
  | ok s =>
    rw [hs] at h
    cases hnamed : q.named <;> simp [hnamed, bind, Except.bind] at h

theorem selectExcept_eq_error {q : ConnectionRequest} {excluded : List String} {f : SettingsFault}
    (h : r.selectExcept q excluded = .error f) : f = .noSuchShard q.shard := by
  unfold selectExcept at h
  cases hs : r.selector q.shard with
  | error f' =>
    rw [hs] at h
    cases h
    exact selector_eq_error hs
  | ok s =>
    rw [hs] at h
    cases hnamed : q.named <;> simp [hnamed, bind, Except.bind] at h

/-- Only datasources of the repository are candidates. -/
theorem Coherent.knows_of_mem_candidates (h : r.Coherent) {q : ConnectionRequest}
    (hmem : uid ∈ r.candidates q) : r.Knows uid := by
  unfold candidates at hmem
  split at hmem
  · cases hmem
  · next s hs _ =>
    obtain ⟨m, hm, rfl, -⟩ := Selector.mem_candidates.1 hmem
    exact h.knows_of_mem (h.selector?_eq_some_iff.1 hs).1 hm
  · next s named hs _ =>
    split at hmem
    · next hactive =>
      obtain ⟨m, hm, rfl⟩ := (Selector.isActive_iff.1 hactive).1
      rw [List.mem_singleton] at hmem
      exact hmem ▸ h.knows_of_mem (h.selector?_eq_some_iff.1 hs).1 hm
    · cases hmem

end Repository

/-! ### What may happen to connections -/

namespace World

variable {w w' w'' : World} {q : ConnectionRequest} {loan : Loan} {uid : String}

/-- The idle connections of a datasource. -/
def idle? (w : World) (uid : String) : Option (IdleQueue Nat) :=
  w.repository.idle? uid

/-- How many connections to a datasource were opened. -/
def opened (w : World) (uid : String) : Nat :=
  (w.backend uid).built

/-- No connection was opened, taken or given back. -/
structure Stays (w w' : World) : Prop where
  /-- The same connections are idle. -/
  idle : ∀ uid, w'.idle? uid = w.idle? uid
  /-- As many were opened. -/
  opened : ∀ uid, w'.opened uid = w.opened uid
  /-- Connections run batches in the same way. -/
  style : w'.style = w.style

/-- The connection that was idle longest at a datasource was taken. -/
structure Takes (w : World) (loan : Loan) (w' : World) : Prop where
  /-- It is idle no more, and everything else is as before. -/
  idle : ∃ q q', w.idle? loan.uid = some q ∧ q.take? = some (loan.number, q') ∧
    ∀ uid, w'.idle? uid = if uid = loan.uid then some q' else w.idle? uid
  /-- As many were opened. -/
  opened : ∀ uid, w'.opened uid = w.opened uid
  /-- Connections run batches in the same way. -/
  style : w'.style = w.style

/-- A connection to a datasource was opened, with the next number. -/
structure Opens (w : World) (loan : Loan) (w' : World) : Prop where
  /-- Its number is the next one. -/
  number : loan.number = w.opened loan.uid + 1
  /-- The same connections are idle. -/
  idle : ∀ uid, w'.idle? uid = w.idle? uid
  /-- One more was opened. -/
  opened : ∀ uid, w'.opened uid = if uid = loan.uid then loan.number else w.opened uid
  /-- Connections run batches in the same way. -/
  style : w'.style = w.style

/-- A connection was given back to its datasource, which drops it if its queue is full. -/
structure Returns (w : World) (loan : Loan) (w' : World) : Prop where
  /-- It is the last of the idle connections, if there was room. -/
  idle : ∀ uid, w'.idle? uid =
    if uid = loan.uid then (w.idle? uid).map fun q => q.put loan.number else w.idle? uid
  /-- As many were opened. -/
  opened : ∀ uid, w'.opened uid = w.opened uid
  /-- Connections run batches in the same way. -/
  style : w'.style = w.style

theorem Stays.refl (w : World) : w.Stays w :=
  ⟨fun _ => rfl, fun _ => rfl, rfl⟩

theorem Stays.trans (h : w.Stays w') (h' : w'.Stays w'') : w.Stays w'' :=
  ⟨fun uid => (h'.idle uid).trans (h.idle uid), fun uid => (h'.opened uid).trans (h.opened uid),
    h'.style.trans h.style⟩

/-- Databases and datasources that stay as they are leave the connections where they are. -/
theorem stays_of_eq (hbackends : w'.backends = w.backends)
    (hdatasources : w'.repository.datasources = w.repository.datasources)
    (hstyle : w'.style = w.style) : w.Stays w' := by
  refine ⟨fun uid => ?_, fun uid => ?_, hstyle⟩
  · simp only [idle?, Repository.idle?, Repository.datasource?, hdatasources]
  · simp only [World.opened, backend, hbackends]

theorem Stays.takes (h : w.Stays w') (htakes : w'.Takes loan w'') : w.Takes loan w'' := by
  obtain ⟨q, q', hq, htake, hidle⟩ := htakes.idle
  refine ⟨⟨q, q', h.idle loan.uid ▸ hq, htake, fun uid => ?_⟩,
    fun uid => (htakes.opened uid).trans (h.opened uid), htakes.style.trans h.style⟩
  rw [hidle, h.idle]

theorem Stays.returns (h : w.Stays w') (hreturns : w'.Returns loan w'') :
    w.Returns loan w'' := by
  refine ⟨fun uid => ?_, fun uid => (hreturns.opened uid).trans (h.opened uid),
    hreturns.style.trans h.style⟩
  rw [hreturns.idle, h.idle]

theorem Returns.stays (h : w.Returns loan w') (hstays : w'.Stays w'') : w.Returns loan w'' :=
  ⟨fun uid => (hstays.idle uid).trans (h.idle uid),
    fun uid => (hstays.opened uid).trans (h.opened uid), hstays.style.trans h.style⟩

theorem stays_reportIfFatal (w : World) (uid : String) (e : SqlError) :
    w.Stays (w.reportIfFatal uid e) :=
  ⟨w.repository.idle?_reportIfFatal uid e, fun _ => rfl, rfl⟩

theorem stays_count (w : World) (m : Metric) : w.Stays (w.count m) :=
  stays_of_eq rfl rfl rfl

theorem stays_call (w : World) (loan : Loan) (kind : CallKind) (sql : String)
    (params : List (List Value)) : w.Stays (w.call loan kind sql params).2 := by
  simp only [call]
  split
  · exact stays_of_eq rfl rfl rfl
  · exact stays_of_eq rfl rfl rfl

theorem returns_giveBack (w : World) (loan : Loan) : w.Returns loan (w.giveBack loan) :=
  ⟨w.repository.idle?_giveBack loan.uid loan.number, fun _ => rfl, rfl⟩

theorem takes_takeIdle? {number : Nat} {r : Repository}
    (h : w.repository.takeIdle? uid = some (number, r)) :
    w.Takes ⟨uid, number⟩ { w with repository := r } :=
  ⟨Repository.idle?_of_takeIdle? h, fun _ => rfl, rfl⟩

/-- The databases of other datasources are not touched by a change of one. -/
theorem backend_setBackend (w : World) (uid v : String) (b : Backend) :
    (w.setBackend uid b).backend v = if v = uid then b else w.backend v := by
  rw [backend, setBackend, List.lookup_cons]
  by_cases hv : v = uid
  · rw [if_pos hv, beq_iff_eq.2 hv]
    rfl
  · rw [if_neg hv, beq_false_of_ne hv]
    show Option.getD ((w.backends.filter fun entry => entry.1 ≠ uid).lookup v) {} = _
    rw [lookup_filter_ne hv, backend]

theorem opens_openConnection {number : Nat} (h : w.openConnection uid = (.ok number, w')) :
    w.Opens ⟨uid, number⟩ w' := by
  unfold openConnection at h
  split at h
  · cases h
  · cases h
    refine ⟨rfl, fun _ => rfl, fun v => ?_, rfl⟩
    rw [opened, backend_setBackend]
    split <;> rfl

/-! ### Searches -/

/-- The choice of a datasource touches no connection, and gives one that the repository knows. -/
theorem stays_choose {isFirst : Bool} {excluded : List String} {given : Option String}
    (h : w.choose q isFirst excluded = .ok (given, w')) :
    w.Stays w' ∧ ∀ uid, given = some uid → w.repository.Coherent → w.repository.Knows uid := by
  unfold choose at h
  split at h
  · cases hselect : w.draw.2.repository.select q w.draw.1 with
    | error f =>
      simp only [hselect] at h
      cases h
    | ok r =>
      simp only [hselect] at h
      cases h
      refine ⟨stays_of_eq rfl (Repository.datasources_select hselect) rfl, ?_⟩
      rintro uid hgiven hcoherent
      rw [show r = (some uid, r.2) from Prod.ext hgiven rfl] at hselect
      exact hcoherent.knows_of_mem_candidates (hcoherent.mem_candidates_of_select hselect)
  · cases hselect : w.repository.selectExcept q excluded with
    | error f =>
      rw [hselect] at h
      cases h
    | ok uid =>
      rw [hselect] at h
      cases h
      refine ⟨Stays.refl w, ?_⟩
      rintro uid rfl hcoherent
      exact hcoherent.knows_of_mem_candidates (hcoherent.mem_candidates_of_selectExcept hselect)

/-- The choice of a datasource fails for shards only that are not there. -/
theorem choose_eq_error {isFirst : Bool} {excluded : List String} {f : SettingsFault}
    (h : w.choose q isFirst excluded = .error f) : f = .noSuchShard q.shard := by
  unfold choose at h
  split at h
  · cases hselect : w.draw.2.repository.select q w.draw.1 with
    | error f' =>
      simp only [hselect] at h
      cases h
      exact Repository.select_eq_error hselect
    | ok r =>
      simp only [hselect] at h
      cases h
  · cases hselect : w.repository.selectExcept q excluded with
    | error f' =>
      rw [hselect] at h
      cases h
      exact Repository.selectExcept_eq_error hselect
    | ok uid =>
      rw [hselect] at h
      cases h

/-- What a search with a number of attempts comes to, and what it does to the connections. -/
inductive Seeks (w : World) (q : ConnectionRequest) (left : Nat) : Sought × World → Prop where
  /-- An idle connection is taken. -/
  | found {loan : Loan} {w' : World} (takes : w.Takes loan w') : Seeks w q left (.found loan, w')
  /-- A connection must be opened, to a datasource that is known; fewer attempts are left. -/
  | mustOpen {uid : String} {rest : Search} {w' : World} (stays : w.Stays w')
      (fewer : rest.left < left) (knows : w.repository.Coherent → w.repository.Knows uid) :
      Seeks w q left (.mustOpen uid rest, w')
  /-- The shard has no datasource to give, or is not there. -/
  | failed {cause : Cause} {w' : World} (stays : w.Stays w')
      (cause_eq : cause = .unavailable q.shard ∨ cause = .settings (.noSuchShard q.shard)) :
      Seeks w q left (.failed cause, w')

theorem Seeks.of_stays {left left' : Nat} {r : Sought × World} (h : w'.Seeks q left r)
    (hstays : w.Stays w') (huses : w.repository.Uses w'.repository) (hle : left ≤ left') :
    w.Seeks q left' r := by
  cases h with
  | found takes => exact .found (hstays.takes takes)
  | mustOpen stays fewer knows =>
    refine .mustOpen (hstays.trans stays) (Nat.lt_of_lt_of_le fewer hle) fun hcoherent => ?_
    obtain ⟨hcoherent', hframe, -⟩ := huses.spec hcoherent
    exact (Repository.knows_of_frame hframe).1 (knows hcoherent')
  | failed stays cause_eq => exact .failed (hstays.trans stays) cause_eq

theorem seeks_seekFrom (w : World) (q : ConnectionRequest) (isFirst : Bool)
    (excluded : List String) (left : Nat) :
    w.Seeks q left (w.seekFrom q isFirst excluded left) := by
  induction left generalizing w isFirst with
  | zero => exact .failed (Stays.refl w) (Or.inl rfl)
  | succ left ih =>
    rw [seekFrom]
    split
    · next f hchoose =>
      exact .failed (Stays.refl w) (Or.inr (congrArg _ (choose_eq_error hchoose)))
    · next w' hchoose =>
      -- the attempt is spent without a datasource
      exact (ih w' false).of_stays (stays_choose hchoose).1 (uses_choose hchoose) left.le_succ
    · next uid w' hchoose =>
      obtain ⟨hstays, hknows⟩ := stays_choose hchoose
      split
      · next number r hidle => exact .found (hstays.takes (takes_takeIdle? hidle))
      · exact .mustOpen hstays (Nat.lt_succ_self left) (hknows uid rfl)

end World

/-! ### Tasks -/

/-- Whether an output is what some work gives: rows for a query, a number otherwise. -/
def Output.Fits : Output → Work → Prop
  | .rows _, .query .. => True
  | .count _, .update .. => True
  | .count _, .batch .. => True
  | _, _ => False

namespace Task

variable {t t' : Task} {w w' : World} {kind : StatementKind} {retry : Nat}

/-- How many attempts to get a connection are left to a task. -/
def attempts (retry : Nat) (t : Task) : Nat :=
  match t.phase with
  | .queued => retry + 1
  | .opening _ s => s.left
  | .calling .. | .finished _ => 0

/-- The connection that a task uses. -/
def loan? (t : Task) : Option Loan :=
  match t.phase with
  | .calling loan .. => some loan
  | _ => none

/-- A task is looking for a connection. -/
def IsSeeking (t : Task) : Prop :=
  t.phase = .queued ∨ ∃ uid s, t.phase = .opening uid s

/-- All that a step of a task can come to. -/
inductive Goes (t : Task) (w : World) (kind : StatementKind) (retry : Nat) :
    Task × World → Prop where
  /-- A task that has ended stays so. -/
  | rests (ended : t.isFinished) : Goes t w kind retry (t, w)
  /-- A connection is being opened. -/
  | waits {uid : String} {s : World.Search} {w' : World} (seeking : t.IsSeeking)
      (stays : w.Stays w') (fewer : s.left < t.attempts retry)
      (knows : w.repository.Coherent → w.repository.Knows uid) :
      Goes t w kind retry ({ t with phase := .opening uid s }, w')
  /-- There is no connection. -/
  | fails {cause : Cause} {w' : World} (seeking : t.IsSeeking) (stays : w.Stays w')
      (cause_eq : cause = .unavailable t.shard ∨ cause = .settings (.noSuchShard t.shard)) :
      Goes t w kind retry ({ t with phase := .finished (.error cause) }, w')
  /-- An idle connection is used from now on. -/
  | takes {loan : Loan} {w' : World} (seeking : t.IsSeeking) (takes : w.Takes loan w') :
      Goes t w kind retry ({ t with phase := begin w' t.work loan }, w')
  /-- The connection that was being opened is used from now on. -/
  | opens {uid : String} {s : World.Search} {number : Nat} {w' : World}
      (phase : t.phase = .opening uid s) (opens : w.Opens ⟨uid, number⟩ w') :
      Goes t w kind retry ({ t with phase := begin w' t.work ⟨uid, number⟩ }, w')
  /-- The next call is made. -/
  | calls {loan : Loan} {call next : CallKind} {params params' : List (List Value)}
      {more : List (CallKind × List (List Value))} {changed changed' : Nat} {w' : World}
      (phase : t.phase = .calling loan call params ((next, params') :: more) changed)
      (stays : w.Stays w') :
      Goes t w kind retry ({ t with phase := .calling loan next params' more changed' }, w')
  /-- The task ends with an output, and its connection is given back. -/
  | succeeds {loan : Loan} {call : CallKind} {params : List (List Value)}
      {more : List (CallKind × List (List Value))} {changed : Nat} {o : Output} {w' : World}
      (phase : t.phase = .calling loan call params more changed) (fits : o.Fits t.work)
      (returns : w.Returns loan w') :
      Goes t w kind retry ({ t with phase := .finished (.ok o) }, w')
  /-- The task ends with an error that is not fatal, and its connection is given back. -/
  | refused {loan : Loan} {call : CallKind} {params : List (List Value)}
      {more : List (CallKind × List (List Value))} {changed : Nat} {e : SqlError} {w' : World}
      (phase : t.phase = .calling loan call params more changed)
      (harmless : w.repository.isFatal loan.uid e = false) (returns : w.Returns loan w') :
      Goes t w kind retry
        ({ t with phase := .finished (.error (.fragment t.shard t.work.sql e)) }, w')
  /-- The task ends with a fatal error, and its connection is thrown away. -/
  | breaks {loan : Loan} {call : CallKind} {params : List (List Value)}
      {more : List (CallKind × List (List Value))} {changed : Nat} {e : SqlError} {w' : World}
      (phase : t.phase = .calling loan call params more changed)
      (fatal : w.repository.isFatal loan.uid e = true) (stays : w.Stays w') :
      Goes t w kind retry
        ({ t with phase := .finished (.error (.fragment t.shard t.work.sql e)) }, w')

variable {w₀ : World}

/-- A search goes on behind something that touched no connection. -/
theorem goes_search (hseeking : t.IsSeeking) (hstays : w₀.Stays w)
    (huses : w₀.repository.Uses w.repository) {s : World.Search}
    (hleft : s.left ≤ t.attempts retry) : t.Goes w₀ kind retry (t.search w retry s) := by
  have hseeks : w₀.Seeks (t.request retry) (t.attempts retry) (w.seek (t.request retry) s) :=
    (w.seeks_seekFrom (t.request retry) s.isFirst s.excluded s.left).of_stays hstays huses hleft
  unfold search
  split
  · next loan w' hseek =>
    rw [hseek] at hseeks
    cases hseeks with
    | found takes => exact .takes hseeking takes
  · next uid rest w' hseek =>
    rw [hseek] at hseeks
    cases hseeks with
    | mustOpen stays fewer knows => exact .waits hseeking stays fewer knows
  · next cause w' hseek =>
    rw [hseek] at hseeks
    cases hseeks with
    | failed stays cause_eq => exact .fails hseeking stays cause_eq

variable {loan : Loan} {call : CallKind} {params : List (List Value)}
  {more : List (CallKind × List (List Value))} {changed : Nat}

/-- A call that was answered leads to the next one, or to the end of the task. -/
theorem goes_answered (hphase : t.phase = .calling loan call params more changed)
    (hstays : w₀.Stays w) (b : Behaviour) :
    t.Goes w₀ kind retry (t.answered w kind loan params more changed b) := by
  have hreturns : ∀ m, w₀.Returns loan ((w.giveBack loan).count m) := fun m =>
    (hstays.returns (w.returns_giveBack loan)).stays ((w.giveBack loan).stays_count m)
  unfold answered
  split
  · next sql ps maxRows hwork =>
    refine .succeeds hphase ?_ (hreturns _)
    rw [hwork]
    trivial
  · next hwork =>
    cases more with
    | cons next more => exact .calls hphase hstays
    | nil =>
      refine .succeeds hphase ?_ (hreturns _)
      cases hw : t.work with
      | query sql ps maxRows => exact absurd hw (hwork sql ps maxRows)
      | update | batch => trivial

/-- A call that failed ends the task. -/
theorem goes_fail (hphase : t.phase = .calling loan call params more changed)
    (hstays : w₀.Stays w) (hrepository : w.repository = w₀.repository) (e : SqlError) :
    t.Goes w₀ kind retry (t.fail w kind loan e) := by
  have hcounted := hstays.trans (w.stays_count (.failed t.shard kind))
  have hfatal : (w.repository.datasource? loan.uid).any (fun d => d.isFatal e) =
      w₀.repository.isFatal loan.uid e := by
    rw [hrepository]
    rfl
  unfold fail
  simp only [hfatal]
  cases hf : w₀.repository.isFatal loan.uid e with
  | true => exact .breaks hphase hf (hcounted.trans (World.stays_reportIfFatal _ _ _))
  | false => exact .refused hphase hf (hcounted.returns (World.returns_giveBack _ _))

/-- What a step of a task comes to. -/
theorem goes_step (t : Task) (w : World) (kind : StatementKind) (retry : Nat) :
    t.Goes w kind retry (t.step w kind retry) := by
  unfold step
  cases hp : t.phase with
  | queued =>
    refine goes_search (Or.inl hp) (World.Stays.refl w) (Repository.Uses.refl _) ?_
    rw [attempts, hp]
    exact Nat.le_refl _
  | opening uid s =>
    simp only
    split
    · next number w' hopen => exact .opens hp (World.opens_openConnection hopen)
    · next e w' hopen =>
      obtain ⟨rfl, -⟩ := World.openConnection_eq_error hopen
      refine goes_search (Or.inr ⟨uid, s, hp⟩) (World.stays_reportIfFatal _ _ _)
        (World.uses_reportIfFatal _ _ _) ?_
      rw [attempts, hp]
      exact Nat.le_refl _
  | calling loan call params more changed =>
    have hstays := w.stays_call loan call t.work.sql params
    have hrepository := w.repository_call loan call t.work.sql params
    simp only
    split
    · next b w' hcall =>
      rw [hcall] at hstays
      exact goes_answered hp hstays b
    · next e w' hcall =>
      rw [hcall] at hstays hrepository
      exact goes_fail hp hstays hrepository e
  | finished result =>
    refine .rests ?_
    rw [isFinished, hp]

/-- A task that has ended does nothing. -/
theorem step_of_isFinished (h : t.isFinished = true) (w : World) (kind : StatementKind)
    (retry : Nat) : t.step w kind retry = (t, w) := by
  unfold isFinished at h
  unfold step
  split at h
  · next hp => rw [hp]
  · cases h

variable {r : Task × World}

/-- A task keeps its shard and its work. -/
theorem Goes.kept (h : t.Goes w kind retry r) : r.1.shard = t.shard ∧ r.1.work = t.work := by
  cases h <;> exact ⟨rfl, rfl⟩

theorem Goes.style (h : t.Goes w kind retry r) : r.2.style = w.style := by
  cases h with
  | rests => rfl
  | waits _ stays | fails _ stays | calls _ stays | breaks _ _ stays => exact stays.style
  | takes _ takes => exact takes.style
  | opens _ opens => exact opens.style
  | succeeds _ _ returns | refused _ _ returns => exact returns.style

/-! ### Progress -/

/-- How many steps a task can take at most. -/
def stepsLeft (style : ConnectionStyle) (retry : Nat) (t : Task) : Nat :=
  match t.phase with
  | .queued => retry + 2 + (t.work.calls style).length
  | .opening _ s => s.left + 1 + (t.work.calls style).length
  | .calling _ _ _ more _ => more.length + 1
  | .finished _ => 0

theorem stepsLeft_of_isSeeking (h : t.IsSeeking) (style : ConnectionStyle) (retry : Nat) :
    t.stepsLeft style retry = t.attempts retry + 1 + (t.work.calls style).length := by
  rcases h with h | ⟨uid, s, h⟩
  · simp only [stepsLeft, attempts, h]
  · simp only [stepsLeft, attempts, h]

/-- A task that has got a connection has its calls to make. -/
theorem stepsLeft_begin (t : Task) (w : World) (loan : Loan) (retry : Nat) :
    ({ t with phase := begin w t.work loan } : Task).stepsLeft w.style retry =
      (t.work.calls w.style).length := by
  unfold stepsLeft begin
  cases t.work.calls w.style <;> rfl

/-- A task that has not ended comes nearer to its end by every step. -/
theorem Goes.stepsLeft_lt (h : t.Goes w kind retry r) (hend : t.isFinished = false) :
    r.1.stepsLeft w.style retry < t.stepsLeft w.style retry := by
  have hstyle := h.style
  have hpos : ∀ loan call params more changed, t.phase = .calling loan call params more changed →
      t.stepsLeft w.style retry = more.length + 1 := by
    intro loan call params more changed hphase
    simp only [stepsLeft, hphase]
  cases h with
  | rests ended =>
    rw [hend] at ended
    cases ended
  | waits seeking _ fewer _ =>
    rw [stepsLeft_of_isSeeking seeking]
    simp only [stepsLeft]
    omega
  | fails seeking =>
    rw [stepsLeft_of_isSeeking seeking]
    simp only [stepsLeft]
    omega
  | takes seeking =>
    rw [← hstyle, stepsLeft_begin, stepsLeft_of_isSeeking seeking]
    omega
  | opens phase =>
    rw [← hstyle, stepsLeft_begin, stepsLeft_of_isSeeking (Or.inr ⟨_, _, phase⟩)]
    omega
  | calls phase =>
    rw [hpos _ _ _ _ _ phase]
    simp only [stepsLeft, List.length_cons]
    omega
  | succeeds phase | refused phase | breaks phase =>
    rw [hpos _ _ _ _ _ phase]
    simp only [stepsLeft]
    omega

/-! ### Results -/

/-- What a task on a shard can fail with: its shard has no datasource to give or is not there, or
its statement failed. -/
inductive FailsWith (t : Task) : Cause → Prop where
  /-- No datasource of the shard gave a connection. -/
  | unavailable : FailsWith t (.unavailable t.shard)
  /-- The shard is not there. -/
  | noSuchShard : FailsWith t (.settings (.noSuchShard t.shard))
  /-- The statement failed. -/
  | fragment (e : SqlError) : FailsWith t (.fragment t.shard t.work.sql e)

/-- What a task that has ended may have come to. -/
def Ends (t : Task) : Prop :=
  match t.phase with
  | .finished (.ok o) => o.Fits t.work
  | .finished (.error cause) => t.FailsWith cause
  | _ => True

/-- Work without calls changes nothing. -/
theorem ends_begin (t : Task) (w : World) (loan : Loan) :
    ({ t with phase := begin w t.work loan } : Task).Ends := by
  unfold begin
  cases hcalls : t.work.calls w.style with
  | cons => trivial
  | nil =>
    show (Output.count 0).Fits t.work
    cases hw : t.work with
    | batch => trivial
    | update =>
      rw [hw] at hcalls
      cases hcalls
    | query =>
      rw [hw] at hcalls
      cases hcalls

/-- A step leads to an output that fits, or to an error of the task. -/
theorem Goes.ends (h : t.Goes w kind retry r) (hends : t.Ends) : r.1.Ends := by
  cases h with
  | rests => exact hends
  | waits | calls => trivial
  | fails _ _ cause_eq =>
    rcases cause_eq with rfl | rfl
    · exact FailsWith.unavailable
    · exact FailsWith.noSuchShard
  | takes | opens => exact ends_begin t _ _
  | succeeds _ fits => exact fits
  | refused | breaks => exact FailsWith.fragment _

end Task

end ShardRouting
