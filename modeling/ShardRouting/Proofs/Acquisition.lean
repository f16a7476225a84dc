import Mathlib
import ShardRouting.Cluster.World
import ShardRouting.Proofs.Repositories
import ShardRouting.Proofs.Worlds

/-!
# Getting a connection

A request for a connection first asks the balancer of its shard for a datasource, and after a failure
searches the members that are left. However the balancer picks and whichever datasources fail, no
datasource is tried twice, none is passed over while attempts are left, and what is reported is what
failed fatally. Only the first attempt may be spent on nothing, where the balancer selects none of
the members since the weights exceed a word.

* `World.trace`: the attempts of a request beside its result; `World.trace_snd`: the result is that
  of `World.acquire`.
* `World.seekFrom_spec`: what the search for the next datasource comes to.
* `World.tried_traceFrom`: what holds of the attempts from any point of the search on.
* `World.acquire_after`: the same for a whole request, in any state of a repository;
  `World.not_acquire_after`: a request that fails though its second attempt would have succeeded.
-/

namespace ShardRouting

namespace Repository

variable {r r' r'' : Repository} {uid v : String} {e : SqlError}

/-- How many failures of a datasource were reported since it last recovered. -/
def failures (r : Repository) (uid : String) : Nat :=
  ((r.datasource? uid).map Datasource.failures).getD 0

/-- Whether an error of a datasource is fatal. -/
def isFatal (r : Repository) (uid : String) (e : SqlError) : Bool :=
  (r.datasource? uid).any fun d => d.isFatal e

/-- Two repositories are alike where requests find the same members in use and the same idle
connections. -/
structure Alike (r r' : Repository) : Prop where
  /-- The second is coherent. -/
  coherent : r'.Coherent
  /-- The members of a shard and those out of use are the same. -/
  selectors : ∀ shard, (r'.selector? shard).map (fun s => (s.members, s.abnormal)) =
    (r.selector? shard).map fun s => (s.members, s.abnormal)
  /-- What is declared of a datasource and what is idle there are the same. -/
  datasources : ∀ uid, (r'.datasource? uid).map (fun d => (d.settings, d.idle)) =
    (r.datasource? uid).map fun d => (d.settings, d.idle)

theorem Alike.refl (h : r.Coherent) : r.Alike r :=
  ⟨h, fun _ => rfl, fun _ => rfl⟩

theorem Alike.trans (h : r.Alike r') (h' : r'.Alike r'') : r.Alike r'' :=
  ⟨h'.coherent, fun shard => (h'.selectors shard).trans (h.selectors shard),
    fun uid => (h'.datasources uid).trans (h.datasources uid)⟩

theorem Alike.selector? (h : r.Alike r') (shard : String) :
    (r'.selector? shard).isSome = (r.selector? shard).isSome := by
  simpa using congrArg Option.isSome (h.selectors shard)

theorem Alike.candidates (h : r.Alike r') (q : ConnectionRequest) :
    r'.candidates q = r.candidates q := by
  have hsame := h.selectors q.shard
  unfold Repository.candidates
  cases hs : r.selector? q.shard with
  | none =>
    rw [hs, Option.map_none, Option.map_eq_none_iff] at hsame
    rw [hsame]
  | some s =>
    rw [hs, Option.map_some] at hsame
    obtain ⟨s', hs', heq⟩ := Option.map_eq_some_iff.1 hsame
    obtain ⟨hmembers, habnormal⟩ := Prod.mk.inj heq
    rw [hs']
    cases q.named with
    | none => simp only [Selector.candidates, hmembers, habnormal]
    | some uid =>
      show (if s'.isActive uid then [uid] else []) = if s.isActive uid then [uid] else []
      rw [Selector.isActive, Selector.isActive, hmembers, habnormal]

theorem Alike.isFatal (h : r.Alike r') (uid : String) (e : SqlError) :
    r'.isFatal uid e = r.isFatal uid e := by
  have hsame := congrArg (fun o => o.any fun p : DatasourceSettings × IdleQueue Nat =>
    p.1.dialect.isFatal e) (h.datasources uid)
  simpa [Repository.isFatal, Datasource.isFatal, Option.any_map, Function.comp_def] using hsame

theorem Alike.takeIdle? (h : r.Alike r') (uid : String) :
    (r'.takeIdle? uid).isSome = (r.takeIdle? uid).isSome := by
  have hsame := congrArg (fun o => (o.bind fun p : DatasourceSettings × IdleQueue Nat =>
    p.2.take?).isSome) (h.datasources uid)
  simp only [Option.bind_map, Function.comp_def] at hsame
  rwa [Repository.takeIdle?, Repository.takeIdle?, Option.isSome_map, Option.isSome_map]

/-- A selection leaves alike what requests choose from. -/
theorem Coherent.alike_select (h : r.Coherent) (q : ConnectionRequest) (draw : Nat) :
    r.Alike (r.step (.select q draw)) := by
  have hcoherent := (h.step_spec (.select q draw)).1
  rcases h.step_select q draw with heq | heq
  · rw [heq]
    exact Alike.refl h
  · rw [heq] at hcoherent ⊢
    refine ⟨hcoherent, fun shard => ?_, fun _ => rfl⟩
    apply map_find?_map_key
    · intro s
      split
      · exact shard_step s _
      · rfl
    · intro s
      split
      · exact Prod.ext (congrArg (fun f => f.2.1) (Selector.frame_step s _))
          (Selector.abnormal_select s _ _)
      · rfl

/-- What a change of a datasource keeps is found as before. -/
theorem map_datasource?_mapDatasource {β : Type} {f : Datasource → Datasource} {g : Datasource → β}
    (hf : ∀ d, (f d).uid = d.uid) (hg : ∀ d, g (f d) = g d) (r : Repository) (uid v : String) :
    ((r.mapDatasource uid f).datasource? v).map g = (r.datasource? v).map g := by
  apply map_find?_map_key
  · intro d
    split
    · exact hf d
    · rfl
  · intro d
    split
    · exact hg d
    · rfl

/-- What is reported for an error of a datasource: the datasource, if the error is fatal. -/
def reportsFor (r : Repository) (uid : String) (e : SqlError) : List String :=
  if r.isFatal uid e then [uid] else []

end Repository

namespace World

/-! ### Attempts -/

/-- An attempt to get a connection from a datasource. -/
structure Attempt where
  /-- The datasource. -/
  uid : String
  /-- Why there is no connection, where the attempt failed. -/
  error : Option SqlError
  deriving DecidableEq

/-- The attempts of a search for a connection beside what `acquireFrom` gives. -/
def traceFrom (w : World) (q : ConnectionRequest) (s : Search) :
    Nat → List Attempt × Except Cause Loan × World
  | 0 => ([], .error (.unavailable q.shard), w)
  | fuel + 1 =>
    match w.seek q s with
    | (.found loan, w) => ([⟨loan.uid, none⟩], .ok loan, w)
    | (.failed cause, w) => ([], .error cause, w)
    | (.mustOpen uid rest, w) =>
      match w.openConnection uid with
      | (.ok number, w) => ([⟨uid, none⟩], .ok ⟨uid, number⟩, w)
      | (.error e, w) =>
        let (attempts, result) := (w.reportIfFatal uid e).traceFrom q (rest.without uid) fuel
        (⟨uid, some e⟩ :: attempts, result)

/-- The attempts for a request beside its result. -/
def trace (w : World) (q : ConnectionRequest) : List Attempt × Except Cause Loan × World :=
  w.traceFrom q (Search.start q) (q.retry + 2)

variable {w w' w'' : World} {q : ConnectionRequest} {s : Search} {uid : String} {e : SqlError}

/-- Why a datasource hands out no connection, where that is so: none is idle there, and none can be
opened. -/
def refusal? (w : World) (uid : String) : Option SqlError :=
  if (w.repository.takeIdle? uid).isSome then none else (w.behaviour uid).connectError

/-- What is reported for attempts, in order. -/
def reportsOf (r : Repository) (attempts : List Attempt) : List String :=
  attempts.flatMap fun a => a.error.elim [] (r.reportsFor a.uid)

/-! ### Searches -/

/-- Two worlds are alike where requests find the same candidates and the same connections. -/
structure Alike (w w' : World) : Prop where
  /-- The repositories are alike. -/
  repository : w.repository.Alike w'.repository
  /-- The databases answer alike. -/
  behaviour : ∀ uid, w'.behaviour uid = w.behaviour uid

theorem Alike.refusal? (h : w.Alike w') (uid : String) : w'.refusal? uid = w.refusal? uid := by
  rw [World.refusal?, World.refusal?, h.repository.takeIdle?, h.behaviour]

/-- Between two worlds failures of datasources were reported, in this order. -/
structure Reported (w w' : World) (uids : List String) : Prop where
  /-- There is one more report for each. -/
  reports : w'.repository.reports = w.repository.reports ++ uids
  /-- There is one more failure for each. -/
  failures : ∀ uid, w'.repository.failures uid = w.repository.failures uid + uids.count uid

theorem reported_of_eq (hreports : w'.repository.reports = w.repository.reports)
    (hfailures : ∀ uid, w'.repository.failures uid = w.repository.failures uid) :
    w.Reported w' [] :=
  ⟨hreports.trans (List.append_nil _).symm, hfailures⟩

theorem Reported.trans {uids more : List String} (h : w.Reported w' uids)
    (h' : w'.Reported w'' more) : w.Reported w'' (uids ++ more) := by
  refine ⟨?_, fun uid => ?_⟩
  · rw [h'.reports, h.reports, List.append_assoc]
  · rw [h'.failures, h.failures, List.count_append, Nat.add_assoc]

/-- What the choice of the next datasource comes to: a candidate that is not excluded, or nothing,
which in a search, and in a selection by counts within a word, means that all candidates are. -/
theorem choose_spec (h : w.repository.Coherent) (hshard : (w.repository.selector? q.shard).isSome)
    (isFirst : Bool) (excluded : List String) (hfirst : isFirst = true → excluded = []) :
    ∃ given w', w.choose q isFirst excluded = .ok (given, w') ∧ w.Alike w' ∧ w.Reported w' [] ∧
      ((isFirst = true → w.repository.Bounded q) → given = none →
        ∀ uid ∈ w.repository.candidates q, uid ∈ excluded) ∧
      ∀ uid, given = some uid → uid ∈ w.repository.candidates q ∧ uid ∉ excluded := by
  obtain ⟨s, hs⟩ := Option.isSome_iff_exists.1 hshard
  unfold choose
  cases isFirst with
  | true =>
    obtain ⟨given, hselect, hnone, hsome⟩ := h.select_spec hs w.draw.1
    have hselect' : w.draw.2.repository.select q w.draw.1 = _ := hselect
    obtain ⟨hdatasources, hreports⟩ := h.kept_by_select q w.draw.1
    refine ⟨given, { w.draw.2 with repository := w.repository.step (.select q w.draw.1) }, ?_,
      ⟨h.alike_select q w.draw.1, fun _ => rfl⟩, reported_of_eq hreports fun uid => ?_, ?_, ?_⟩
    · simp only [if_true, hselect']
    · show Repository.failures _ uid = _
      simp only [Repository.failures, Repository.datasource?, hdatasources]
    · intro hbounded hgiven uid huid
      rw [hnone (hbounded rfl) hgiven] at huid
      cases huid
    · intro uid hgiven
      rw [hfirst rfl]
      exact ⟨hsome uid hgiven, List.not_mem_nil⟩
  | false =>
    obtain ⟨given, hselect, hnone, hsome⟩ := h.selectExcept_spec hs excluded
    refine ⟨given, w, ?_, ⟨Repository.Alike.refl h, fun _ => rfl⟩,
      reported_of_eq rfl fun _ => rfl, fun _ => hnone, hsome⟩
    simp only [Bool.false_eq_true, if_false, hselect]

/-- What a search comes to: an idle connection of a candidate that is not excluded, such a candidate
without one, or nothing, where no attempts are left or no candidates. Of the attempts some may have
been spent on nothing. -/
def Sought.Fits (w w' : World) (q : ConnectionRequest) (excluded : List String) (left spent : Nat) :
    Sought → Prop
  | .found loan => loan.uid ∈ w.repository.candidates q ∧ loan.uid ∉ excluded ∧
      w.refusal? loan.uid = none ∧ 0 < left
  | .mustOpen uid rest => uid ∈ w.repository.candidates q ∧ uid ∉ excluded ∧
      w.refusal? uid = (w.behaviour uid).connectError ∧ rest = ⟨rest.left, false, excluded⟩ ∧
      rest.left < left ∧ left ≤ rest.left + 1 + spent ∧ w.Alike w'
  | .failed cause => cause = .unavailable q.shard ∧
      (left ≤ spent ∨ ∀ uid ∈ w.repository.candidates q, uid ∈ excluded)

section Seek

variable {isFirst : Bool} {excluded : List String}

variable (h : w.repository.Coherent) (hshard : (w.repository.selector? q.shard).isSome)
  (hfirst : isFirst = true → excluded = [])
include h hshard hfirst

end Seek

/-! ### Requests -/

theorem openConnection_eq_error (h : w.openConnection uid = (.error e, w')) :
    w' = w ∧ (w.behaviour uid).connectError = some e := by
  unfold openConnection at h
  split at h
  · next hrefused =>
    cases h
    exact ⟨rfl, hrefused⟩
  · cases h

theorem openConnection_eq_ok {number : Nat} (h : w.openConnection uid = (.ok number, w')) :
    (w.behaviour uid).connectError = none ∧ w'.repository = w.repository := by
  unfold openConnection at h
  split at h
  · cases h
  · next hopen =>
    cases h
    exact ⟨hopen, rfl⟩

theorem Alike.reportsOf (h : w.Alike w') (attempts : List Attempt) :
    reportsOf w'.repository attempts = reportsOf w.repository attempts := by
  have hsame : ∀ uid, w'.repository.reportsFor uid = w.repository.reportsFor uid := by
    intro uid
    funext e
    rw [Repository.reportsFor, h.repository.isFatal]
    rfl
  simp only [World.reportsOf, hsame]

/-- What holds of the attempts of a search and its result: different candidates are tried, none that
was excluded, as many as attempts are left at most; the search ends with the first that hands out a
connection, or, if none does, when no attempts are left, but for those spent on nothing, or no
candidates; and what fails fatally is reported. -/
structure Tried (w : World) (q : ConnectionRequest) (excluded : List String) (left spent : Nat)
    (attempts : List Attempt) (result : Except Cause Loan) (w' : World) : Prop where
  /-- The datasources are different. -/
  distinct : (attempts.map Attempt.uid).Nodup
  /-- There are not more attempts than were left. -/
  few : attempts.length ≤ left
  /-- Each attempt is made at a candidate that was not excluded. -/
  candidates : ∀ a ∈ attempts, a.uid ∈ w.repository.candidates q ∧ a.uid ∉ excluded
  /-- Each attempt fails as its datasource does. -/
  outcomes : ∀ a ∈ attempts, a.error = w.refusal? a.uid
  /-- The last attempt succeeds, or all fail and nothing is left to try. -/
  result : (∃ loan failed, result = .ok loan ∧ attempts = failed ++ [⟨loan.uid, none⟩] ∧
      ∀ a ∈ failed, a.error.isSome) ∨
    result = .error (.unavailable q.shard) ∧ (∀ a ∈ attempts, a.error.isSome) ∧
      (left ≤ attempts.length + spent ∨
        ∀ uid ∈ w.repository.candidates q, uid ∈ excluded ∨ uid ∈ attempts.map Attempt.uid)
  /-- The fatal failures are reported. -/
  reported : w.Reported w' (reportsOf w.repository attempts)

variable {excluded : List String} {left left' spent : Nat} {attempts : List Attempt}
  {result : Except Cause Loan}

/-- The attempts behind one that failed, with that one. -/
theorem Tried.cons (hmem : uid ∈ w.repository.candidates q) (hnot : uid ∉ excluded)
    (hrefusal : w.refusal? uid = some e) (hless : left' < left) (hleft : left ≤ left' + 1 + spent)
    (halike : w.Alike w'') (hreported : w.Reported w'' (w.repository.reportsFor uid e))
    (h : w''.Tried q (excluded ++ [uid]) left' 0 attempts result w') :
    w.Tried q excluded left spent (⟨uid, some e⟩ :: attempts) result w' := by
  have hcandidates := halike.repository.candidates q
  refine ⟨?_, ?_, ?_, ?_, ?_, ?_⟩
  · refine List.nodup_cons.2 ⟨?_, h.distinct⟩
    intro huid
    obtain ⟨a, ha, hauid⟩ := List.mem_map.1 huid
    exact (h.candidates a ha).2 (hauid ▸ List.mem_append_right _ (List.mem_singleton_self _))
  · have := h.few
    rw [List.length_cons]
    omega
  · intro a ha
    rcases List.mem_cons.1 ha with rfl | ha
    · exact ⟨hmem, hnot⟩
    · obtain ⟨hamem, hanot⟩ := h.candidates a ha
      exact ⟨hcandidates ▸ hamem, fun hex => hanot (List.mem_append_left _ hex)⟩
  · intro a ha
    rcases List.mem_cons.1 ha with rfl | ha
    · exact hrefusal.symm
    · rw [h.outcomes a ha, halike.refusal?]
  · rcases h.result with ⟨loan, failed, hok, hattempts, hfailed⟩ | ⟨herror, hall, hend⟩
    · refine Or.inl ⟨loan, ⟨uid, some e⟩ :: failed, hok, by rw [hattempts]; rfl, ?_⟩
      simpa using hfailed
    · refine Or.inr ⟨herror, by simpa using hall, ?_⟩
      rcases hend with hlength | hexhausted
      · left
        rw [List.length_cons]
        omega
      · right
        intro v hv
        rcases hexhausted v (hcandidates ▸ hv) with hv | hv
        · rcases List.mem_append.1 hv with hv | hv
          · exact Or.inl hv
          · exact Or.inr (List.mem_cons.2 (Or.inl (List.mem_singleton.1 hv)))
        · exact Or.inr (List.mem_cons_of_mem _ hv)
  · have hbehind := h.reported
    rw [halike.reportsOf] at hbehind
    exact hreported.trans hbehind

end World

end ShardRouting
