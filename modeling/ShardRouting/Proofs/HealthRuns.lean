import Mathlib
import ShardRouting.Proofs.Operations

/-!
# Health checks while statements run

Whatever statements, callers and databases do between the steps of the monitor, what the monitor
suspects is at any time what is out of use. From this follows what becomes of a report: it waits for
the monitor, it makes its datasource suspected, and only a successful validation ends that.

* `Operation.Agrees`: what is suspected is what is out of use; `Operation.Agrees.after`: in any run.
* `Operation.Move`: what one event may do; every invariant is a case analysis of it.
* `Operation.Onward`: what becomes of reports and suspects from one state to a later one.
* `Operation.Settling`: how far a report is on its way through one check.
* `Operation.agreement`: what holds of any run.
* `Operation.not_validated_in_each_check`: a report that one check has taken is no matter of the next.
-/

namespace ShardRouting

namespace Operation

variable {o o' o'' : Operation} {timeout : Nat} {uid v : String}

/-! ### What is suspected and what is out of use -/

/-- The monitor suspects what is out of use in a coherent repository. -/
structure Agrees (p : Monitor.Progress) : Prop where
  /-- The repository is coherent. -/
  coherent : p.world.repository.Coherent
  /-- What is suspected is out of use, and nothing else is. -/
  suspects : ∀ uid, uid ∈ p.suspects ↔ p.world.repository.OutOfUse uid
  /-- The suspects are in order, each once. -/
  sorted : p.suspects.Pairwise (· < ·)

variable {p p' : Monitor.Progress} {rest : List String}

/-- A member is not in use exactly where it is suspected. -/
theorem Agrees.isActive_eq_false_iff (h : Agrees p) {s : Selector} {m : MemberSettings}
    (hs : s ∈ p.world.repository.selectors) (hm : m ∈ s.members) :
    s.isActive m.uid = false ↔ m.uid ∈ p.suspects := by
  rw [h.coherent.isActive_eq_false_iff hs hm, h.suspects]

theorem Agrees.nodup (h : Agrees p) : p.suspects.Nodup :=
  h.sorted.imp fun hlt => ne_of_lt hlt

/-- What statements do leaves it as it is. -/
theorem Agrees.of_uses (h : Agrees p) (huses : p.world.repository.Uses p'.world.repository)
    (hsuspects : p'.suspects = p.suspects) : Agrees p' := by
  obtain ⟨hcoherent, -, -, hout⟩ := huses.spec h.coherent
  refine ⟨hcoherent, fun uid => ?_, hsuspects ▸ h.sorted⟩
  rw [hsuspects, h.suspects, hout]

/-- A report that is taken: nothing goes out of use that is suspected already, and else exactly the
datasource of the report. -/
theorem takeReport_cases (p : Monitor.Progress) (uid : String) (rest : List String) :
    (uid ∈ p.suspects ∧ takeReport p uid rest = { p with
        world := { p.world with repository := { p.world.repository with reports := rest } } }) ∨
      uid ∉ p.suspects ∧ takeReport p uid rest = { p with
        world := { p.world with repository :=
          { p.world.repository.step (.demote uid) with reports := rest } }
        suspects := Text.insertSorted uid p.suspects } := by
  by_cases h : uid ∈ p.suspects
  · left
    exact ⟨h, by simp [takeReport, Monitor.demoteAll, h]⟩
  · right
    refine ⟨h, ?_⟩
    simp [takeReport, Monitor.demoteAll, h, Repository.demote_withReports, Repository.step]

theorem mem_suspects_takeReport :
    v ∈ (takeReport p uid rest).suspects ↔ v = uid ∨ v ∈ p.suspects := by
  rcases takeReport_cases p uid rest with ⟨hmem, heq⟩ | ⟨-, heq⟩
  · rw [heq]
    refine ⟨Or.inr, ?_⟩
    rintro (rfl | hv)
    · exact hmem
    · exact hv
  · rw [heq]
    exact Text.mem_insertSorted

theorem Agrees.takeReport (h : Agrees p) (hreports : p.world.repository.reports = uid :: rest) :
    Agrees (takeReport p uid rest) := by
  have hknown : ∀ v ∈ uid :: rest, p.world.repository.Knows v :=
    fun v hv => h.coherent.reported v (hreports ▸ hv)
  rcases takeReport_cases p uid rest with ⟨-, heq⟩ | ⟨hnew, heq⟩
  · rw [heq]
    exact ⟨h.coherent.withReports fun v hv => hknown v (List.mem_cons_of_mem _ hv), h.suspects,
      h.sorted⟩
  · rw [heq]
    obtain ⟨hcoherent, hframe⟩ := h.coherent.step_spec (.demote uid)
    refine ⟨hcoherent.withReports fun v hv => ?_, fun v => ?_, Text.pairwise_insertSorted h.sorted⟩
    · exact (Repository.knows_of_frame hframe).2 (hknown v (List.mem_cons_of_mem _ hv))
    · have hout := h.coherent.outOfUse_demote uid v
      rw [and_iff_left (hknown uid List.mem_cons_self), or_comm] at hout
      rw [Text.mem_insertSorted, h.suspects]
      exact hout.symm

/-- What the validation of a suspect comes to: it is back in use and no longer suspected, or
everything is as before. -/
theorem Agrees.checkOne_cases (h : Agrees p) (timeout : Nat) (uid : String) :
    ∃ new, (Monitor.checkOne timeout p uid).results = p.results ++ new ∧
      ((Monitor.checkOne timeout p uid).suspects = p.suspects ∧
          (Monitor.checkOne timeout p uid).world.repository = p.world.repository ∨
        (uid, .recovered) ∈ new ∧
          (Monitor.checkOne timeout p uid).suspects = p.suspects.erase uid ∧
          (Monitor.checkOne timeout p uid).world.repository =
            p.world.repository.step (.wake uid)) := by
  unfold Monitor.checkOne
  cases hd : p.world.repository.datasource? uid with
  | none =>
    have hnot : uid ∉ p.suspects := by
      intro hmem
      have hknown := h.coherent.knows_of_outOfUse ((h.suspects uid).1 hmem)
      rw [Repository.knows_iff, hd] at hknown
      cases hknown
    exact ⟨[], (List.append_nil _).symm, Or.inl ⟨List.erase_of_not_mem hnot, rfl⟩⟩
  | some d =>
    have hrepository := p.world.repository_validate d timeout
    simp only
    by_cases hstatus : (p.world.validate d timeout).1 = .recovered
    · rw [if_pos hstatus, hstatus]
      refine ⟨[(uid, .recovered)], rfl, Or.inr ⟨List.mem_singleton_self _, rfl, ?_⟩⟩
      show ((p.world.validate d timeout).2.2.repository.wake uid).2 = _
      rw [hrepository]
      rfl
    · rw [if_neg hstatus]
      exact ⟨_, rfl, Or.inl ⟨rfl, hrepository⟩⟩

theorem Agrees.checkOne (h : Agrees p) (timeout : Nat) (uid : String) :
    Agrees (Monitor.checkOne timeout p uid) := by
  obtain ⟨new, -, ⟨hsuspects, hrepository⟩ | ⟨-, hsuspects, hrepository⟩⟩ :=
    h.checkOne_cases timeout uid
  · apply h.of_uses _ hsuspects
    rw [hrepository]
    exact Repository.Uses.refl _
  · refine ⟨?_, fun v => ?_, ?_⟩
    · rw [hrepository]
      exact (h.coherent.step_spec _).1
    · rw [hsuspects, hrepository, h.coherent.outOfUse_wake, h.nodup.mem_erase_iff, h.suspects,
        and_comm]
    · rw [hsuspects]
      exact h.sorted.sublist List.erase_sublist

/-! ### Events -/

variable {e : Event}

/-- What an event may do to an operation: what statements, callers and databases do passes the
monitor by, and the monitor takes one step of its check. -/
inductive Move (timeout : Nat) (o : Operation) : Event → Operation → Prop where
  /-- Something passes the monitor by. -/
  | pass {e : Event} {o' : Operation} (uses : o.repository.Uses o'.repository)
      (suspects : o'.suspects = o.suspects) (results : o'.progress.results = o.progress.results)
      (stage : o'.stage = o.stage) (checks : o'.checks = o.checks) : Move timeout o e o'
  /-- A check begins. -/
  | begin (stage : o.stage = .idle) : Move timeout o .monitor { o with stage := .taking }
  /-- A report is taken. -/
  | take {uid : String} {rest : List String} (stage : o.stage = .taking)
      (reports : o.repository.reports = uid :: rest) :
      Move timeout o .monitor { o with progress := takeReport o.progress uid rest }
  /-- No report is left, and the suspects are to be validated. -/
  | turn (stage : o.stage = .taking) (reports : o.repository.reports = []) :
      Move timeout o .monitor { o with stage := .validating o.suspects }
  /-- A suspect is validated. -/
  | validate {uid : String} {pending : List String}
      (stage : o.stage = .validating (uid :: pending)) :
      Move timeout o .monitor { o with
        stage := .validating pending
        progress := Monitor.checkOne timeout o.progress uid }
  /-- The check ends. -/
  | finish (stage : o.stage = .validating []) :
      Move timeout o .monitor { o with
        stage := .idle
        checks := o.checks ++ [o.progress.results]
        progress := { world := o.world, suspects := o.suspects } }

/-- Every event makes one of these moves. -/
theorem move_step (timeout : Nat) (o : Operation) (e : Event) :
    Move timeout o e (o.step timeout e) := by
  cases e with
  | statement e s maxRows =>
    have hrepository : (e.plan o.world s).2.repository = o.repository := rfl
    simp only [step]
    split
    · next w h =>
      rw [h] at hrepository
      refine .pass ?_ rfl rfl rfl rfl
      rw [show (o.withWorld w).repository = w.repository from rfl, hrepository]
      exact Repository.Uses.refl _
    · next p w h =>
      rw [h] at hrepository
      refine .pass ?_ rfl rfl rfl rfl
      show o.repository.Uses w.repository
      rw [hrepository]
      exact Repository.Uses.refl _
  | goOn i =>
    simp only [step]
    split
    · exact .pass (Repository.Uses.refl _) rfl rfl rfl rfl
    · next x _ => exact .pass (x.task.uses_step o.world x.kind x.retry) rfl rfl rfl rfl
  | report uid => exact .pass (Repository.uses_step (x := .report uid) rfl) rfl rfl rfl rfl
  | behave uid b => exact .pass (Repository.Uses.refl _) rfl rfl rfl rfl
  | monitor =>
    simp only [step, monitorStep]
    split
    · next h => exact .begin h
    · next h =>
      split
      · next hreports => exact .take h hreports
      · next hreports => exact .turn h hreports
    · next h => exact .validate h
    · next h => exact .finish h

/-- Every event leaves suspected what is out of use. -/
theorem Agrees.move (h : Agrees o.progress) (hmove : Move timeout o e o') : Agrees o'.progress := by
  cases hmove with
  | pass uses suspects => exact h.of_uses uses suspects
  | begin | turn => exact h
  | take stage reports => exact h.takeReport reports
  | validate stage => exact h.checkOne timeout _
  | finish stage => exact ⟨h.coherent, h.suspects, h.sorted⟩

/-- So does any run. -/
theorem Agrees.after (h : Agrees o.progress) (events : List Event) :
    Agrees (o.after timeout events).progress := by
  induction events generalizing o with
  | nil => exact h
  | cons e events ih => exact ih (h.move (move_step timeout o e))

/-- In a repository that was built nothing is out of use, and nothing is suspected. -/
theorem agrees_start {settings : Settings} {w : World}
    (hbuild : Repository.build settings = .ok w.repository) : Agrees (start w).progress := by
  have hfresh := Repository.fresh_build hbuild
  refine ⟨hfresh.coherent, fun uid => ⟨nofun, ?_⟩, List.Pairwise.nil⟩
  rintro ⟨s, hs, hout⟩
  rw [hfresh.inUse s hs] at hout
  cases hout

/-! ### What becomes of reports and suspects -/

/-- From one state to a later one: what was validated in between comes behind what was validated
before; a report is still there, or its datasource is suspected, or it was validated and answered;
and what was suspected is suspected still, or was validated and answered. -/
structure Onward (o o' : Operation) (new : List (String × CheckStatus)) : Prop where
  /-- What was validated in between. -/
  validated : o'.validated = o.validated ++ new
  /-- What becomes of reports. -/
  reports : ∀ uid ∈ o.repository.reports,
    uid ∈ o'.repository.reports ∨ uid ∈ o'.suspects ∨ (uid, .recovered) ∈ new
  /-- What becomes of suspects. -/
  suspects : ∀ uid ∈ o.suspects, uid ∈ o'.suspects ∨ (uid, .recovered) ∈ new

theorem Onward.refl (o : Operation) : Onward o o [] :=
  ⟨(List.append_nil _).symm, fun _ h => Or.inl h, fun _ h => Or.inl h⟩

theorem Onward.trans {new more : List (String × CheckStatus)} (h : Onward o o' new)
    (h' : Onward o' o'' more) : Onward o o'' (new ++ more) := by
  have hsuspects : ∀ uid ∈ o'.suspects, uid ∈ o''.suspects ∨ (uid, .recovered) ∈ new ++ more :=
    fun uid huid => (h'.suspects uid huid).imp id (List.mem_append_right _)
  refine ⟨?_, fun uid huid => ?_, fun uid huid => ?_⟩
  · rw [h'.validated, h.validated, List.append_assoc]
  · rcases h.reports uid huid with hreports | hsuspect | hnew
    · exact (h'.reports uid hreports).imp id (Or.imp id (List.mem_append_right _))
    · exact Or.inr (hsuspects uid hsuspect)
    · exact Or.inr (Or.inr (List.mem_append_left _ hnew))
  · rcases h.suspects uid huid with hsuspect | hnew
    · exact hsuspects uid hsuspect
    · exact Or.inr (List.mem_append_left _ hnew)

/-- Taking a report loses none of the others, and no suspect. -/
theorem onward_takeReport (hreports : o.repository.reports = uid :: rest) :
    Onward o { o with progress := takeReport o.progress uid rest } [] := by
  have hkept : (takeReport o.progress uid rest).results = o.progress.results ∧
      (takeReport o.progress uid rest).world.repository.reports = rest := by
    rcases takeReport_cases o.progress uid rest with ⟨-, heq⟩ | ⟨-, heq⟩
    · rw [heq]
      exact ⟨rfl, rfl⟩
    · rw [heq]
      exact ⟨rfl, rfl⟩
  refine ⟨?_, fun v hv => ?_, fun v hv => Or.inl (mem_suspects_takeReport.2 (Or.inr hv))⟩
  · show o.checks.flatten ++ (takeReport o.progress uid rest).results = _
    rw [hkept.1, List.append_nil]
    rfl
  · rw [hreports] at hv
    rcases List.mem_cons.1 hv with rfl | hv
    · exact Or.inr (Or.inl (mem_suspects_takeReport.2 (Or.inl rfl)))
    · exact Or.inl (hkept.2.symm ▸ hv)

/-- A validation loses no report, and no suspect that does not answer. -/
theorem Agrees.suspects_checkOne (h : Agrees p) (timeout : Nat) (uid : String) :
    ∃ new, (Monitor.checkOne timeout p uid).results = p.results ++ new ∧
      (Monitor.checkOne timeout p uid).world.repository.reports = p.world.repository.reports ∧
      ∀ v ∈ p.suspects,
        v ∈ (Monitor.checkOne timeout p uid).suspects ∨ (v, .recovered) ∈ new := by
  obtain ⟨new, hresults, ⟨hsuspects, hrepository⟩ | ⟨hnew, hsuspects, hrepository⟩⟩ :=
    h.checkOne_cases timeout uid
  · refine ⟨new, hresults, by rw [hrepository], fun v hv => Or.inl ?_⟩
    rwa [hsuspects]
  · refine ⟨new, hresults, ?_, fun v hv => ?_⟩
    · rw [hrepository]
      exact Repository.reports_wake _ _
    · by_cases hvu : v = uid
      · exact Or.inr (hvu ▸ hnew)
      · rw [hsuspects]
        exact Or.inl ((List.mem_erase_of_ne hvu).2 hv)

/-- What becomes of reports and suspects by one event. -/
theorem Agrees.onward_move (h : Agrees o.progress) (hmove : Move timeout o e o') :
    ∃ new, Onward o o' new := by
  cases hmove with
  | pass uses suspects results stage checks =>
    obtain ⟨-, -, ⟨more, hmore⟩, -⟩ := uses.spec h.coherent
    refine ⟨[], ?_, fun uid huid => Or.inl ?_, fun uid huid => Or.inl (suspects.symm ▸ huid)⟩
    · rw [validated, validated, results, checks, List.append_nil]
    · rw [hmore]
      exact List.mem_append_left _ huid
  | begin | turn =>
    exact ⟨[], (List.append_nil _).symm, fun _ huid => Or.inl huid, fun _ huid => Or.inl huid⟩
  | take stage reports => exact ⟨[], onward_takeReport reports⟩
  | @validate checked pending stage =>
    obtain ⟨new, hresults, hreports, hsuspects⟩ := h.suspects_checkOne timeout checked
    refine ⟨new, ?_, fun uid huid => Or.inl ?_, hsuspects⟩
    · show o.checks.flatten ++ (Monitor.checkOne timeout o.progress checked).results = _
      rw [hresults, ← List.append_assoc]
      rfl
    · show uid ∈ (Monitor.checkOne timeout o.progress checked).world.repository.reports
      rw [hreports]
      exact huid
  | finish stage =>
    refine ⟨[], ?_, fun _ huid => Or.inl huid, fun _ huid => Or.inl huid⟩
    simp [validated]

/-- What becomes of reports and suspects in any run. -/
theorem Agrees.onward_after (h : Agrees o.progress) (events : List Event) :
    ∃ new, Onward o (o.after timeout events) new := by
  induction events generalizing o with
  | nil => exact ⟨[], Onward.refl o⟩
  | cons e events ih =>
    have hmove := move_step timeout o e
    obtain ⟨new, hnew⟩ := h.onward_move hmove
    obtain ⟨more, hmore⟩ := ih (h.move hmove)
    exact ⟨new ++ more, hnew.trans hmore⟩

/-- Only a report that the monitor takes makes a datasource suspected. -/
theorem Agrees.reported_of_move (h : Agrees o.progress) (hmove : Move timeout o e o')
    (hnot : uid ∉ o.suspects) (hmem : uid ∈ o'.suspects) :
    e = .monitor ∧ uid ∈ o.repository.reports := by
  cases hmove with
  | pass uses suspects => exact absurd (suspects ▸ hmem) hnot
  | begin | turn | finish => exact absurd hmem hnot
  | take stage reports =>
    rw [reports]
    obtain rfl := (mem_suspects_takeReport.1 hmem).resolve_right hnot
    exact ⟨rfl, List.mem_cons_self⟩
  | @validate checked pending stage =>
    have hkept : uid ∈ (Monitor.checkOne timeout o.progress checked).suspects := hmem
    obtain ⟨new, -, ⟨hsuspects, -⟩ | ⟨-, hsuspects, -⟩⟩ := h.checkOne_cases timeout checked
    · rw [hsuspects] at hkept
      exact absurd hkept hnot
    · rw [hsuspects] at hkept
      exact absurd (List.mem_of_mem_erase hkept) hnot

/-- What is suspected at the end of a run was suspected at its beginning, or the monitor took a report
of it on the way. -/
theorem Agrees.reported_of_after (h : Agrees o.progress) {events : List Event}
    (hmem : uid ∈ (o.after timeout events).suspects) : uid ∈ o.suspects ∨
      ∃ before rest, events = before ++ .monitor :: rest ∧
        uid ∈ (o.after timeout before).repository.reports := by
  induction events generalizing o with
  | nil => exact Or.inl hmem
  | cons e events ih =>
    have hmove := move_step timeout o e
    rcases ih (h.move hmove) hmem with hsuspect | ⟨before, rest, rfl, hreported⟩
    · by_cases hnot : uid ∈ o.suspects
      · exact Or.inl hnot
      · obtain ⟨rfl, hreported⟩ := h.reported_of_move hmove hnot hsuspect
        exact Or.inr ⟨[], events, rfl, hreported⟩
    · exact Or.inr ⟨e :: before, rest, rfl, hreported⟩

/-! ### One check among other events -/

/-- How far a report that was there between two checks is on its way, from the state between the
checks on: it is there until the next check takes it; then its datasource is suspected until it is
validated and answers; and so it is at the end of that check. -/
def Settling (o : Operation) (uid : String) (o' : Operation) : Prop :=
  match o'.stage with
  | .idle => (o'.checks = o.checks → uid ∈ o'.repository.reports) ∧
      ∀ results, o'.checks = o.checks ++ [results] →
        (uid, .recovered) ∈ results ∨ uid ∈ o'.suspects
  | .taking => o'.checks = o.checks → uid ∈ o'.repository.reports ∨ uid ∈ o'.suspects
  | .validating _ => o'.checks = o.checks →
      (uid, .recovered) ∈ o'.progress.results ∨ uid ∈ o'.suspects

/-- Checks that have ended stay. -/
theorem Move.checks_prefix (hmove : Move timeout o e o') : o.checks <+: o'.checks := by
  cases hmove with
  | pass uses suspects results stage checks => rw [checks]
  | begin | take | turn | validate => exact List.prefix_rfl
  | finish stage => exact List.prefix_append _ _

/-- One event keeps a report on its way. -/
theorem Agrees.settling_move (h : Agrees o'.progress) (hmove : Move timeout o' e o'')
    (hchecks : o.checks <+: o'.checks) (hsettling : Settling o uid o') :
    Settling o uid o'' := by
  cases hmove with
  | pass uses suspects results stage checks =>
    obtain ⟨-, -, ⟨more, hmore⟩, -⟩ := uses.spec h.coherent
    have hreports : uid ∈ o'.repository.reports → uid ∈ o''.repository.reports := by
      rw [hmore]
      exact List.mem_append_left _
    unfold Settling at hsettling ⊢
    rw [stage, checks, results, suspects]
    cases hstage : o'.stage with
    | idle =>
      rw [hstage] at hsettling
      exact ⟨fun hsame => hreports (hsettling.1 hsame), hsettling.2⟩
    | taking =>
      rw [hstage] at hsettling
      exact fun hsame => (hsettling hsame).imp hreports id
    | validating pending =>
      rw [hstage] at hsettling
      exact hsettling
  | begin stage =>
    simp only [Settling, stage] at hsettling ⊢
    intro hsame
    exact Or.inl (hsettling.1 hsame)
  | take stage reports =>
    simp only [Settling, stage] at hsettling ⊢
    intro hsame
    obtain ⟨-, hreports, hsuspects⟩ := onward_takeReport reports
    rcases hsettling hsame with hmem | hmem
    · exact (hreports uid hmem).imp id fun h => h.resolve_right List.not_mem_nil
    · exact Or.inr ((hsuspects uid hmem).resolve_right List.not_mem_nil)
  | turn stage reports =>
    simp only [Settling, stage, reports] at hsettling ⊢
    intro hsame
    exact Or.inr ((hsettling hsame).resolve_left List.not_mem_nil)
  | @validate checked pending stage =>
    simp only [Settling, stage] at hsettling ⊢
    intro hsame
    obtain ⟨new, hresults, -, hsuspects⟩ := h.suspects_checkOne timeout checked
    rw [hresults]
    rcases hsettling hsame with hmem | hmem
    · exact Or.inl (List.mem_append_left _ hmem)
    · exact (hsuspects uid hmem).symm.imp (List.mem_append_right _) id
  | finish stage =>
    simp only [Settling, stage] at hsettling ⊢
    refine ⟨fun hsame => ?_, fun results hresults => ?_⟩
    · have hlength := congrArg List.length hsame
      have hle := hchecks.length_le
      rw [List.length_append, List.length_singleton] at hlength
      omega
    · obtain ⟨hsame, hlast⟩ := List.append_inj' hresults rfl
      obtain rfl := List.cons.inj hlast |>.1
      exact hsettling hsame

/-- Any run that begins between two checks keeps the reports that are there then on their way. -/
theorem Agrees.settling_after (h : Agrees o.progress) (hstage : o.stage = .idle)
    (huid : uid ∈ o.repository.reports) (timeout : Nat) (events : List Event) :
    Settling o uid (o.after timeout events) := by
  have hrun : ∀ (es : List Event) (x : Operation), Agrees x.progress → o.checks <+: x.checks →
      Settling o uid x → Settling o uid (x.after timeout es) := by
    intro es
    induction es with
    | nil => exact fun _ _ _ hx => hx
    | cons e es ih =>
      intro x hagrees hchecks hx
      have hmove := move_step timeout x e
      exact ih _ (hagrees.move hmove) (hchecks.trans hmove.checks_prefix)
        (hagrees.settling_move hmove hchecks hx)
  apply hrun events o h List.prefix_rfl
  unfold Settling
  rw [hstage]
  refine ⟨fun _ => huid, fun results hresults => ?_⟩
  have hlength := congrArg List.length hresults
  rw [List.length_append, List.length_singleton] at hlength
  omega

/-! ### Runs -/

/-- In any run from a repository that was built, with any statements, reports, answers of databases
and checks in any order: a member is not in use exactly where the monitor suspects it; what is
suspected is never selected; and from any state on to any later one,

* a report that is there when a check begins leads, by the end of that check, to a successful
  validation in it or to a suspect;
* a report is kept until its datasource is suspected, and a suspect is kept until a successful
  validation of it;
* a datasource is suspected anew only by a report that the monitor takes. -/
theorem agreement {settings : Settings} {w : World} {before : List Event}
    (hbuild : Repository.build settings = .ok w.repository)
    (ho : (start w).after timeout before = o) :
    (∀ s ∈ o.repository.selectors, ∀ m ∈ s.members,
      (s.isActive m.uid = false ↔ m.uid ∈ o.suspects)) ∧
    (∀ uid ∈ o.suspects, (∃ s ∈ o.repository.selectors, ∃ m ∈ s.members, m.uid = uid) ∧
      (∀ q draw r, o.repository.select q draw ≠ .ok (some uid, r)) ∧
      ∀ q excluded, o.repository.selectExcept q excluded ≠ .ok (some uid)) ∧
    (∀ uid, o.repository.Knows uid → uid ∈ (o.step timeout (.report uid)).repository.reports) ∧
    ∀ later o', o.after timeout later = o' →
      (o.stage = .idle → o'.stage = .idle → ∀ results, o'.checks = o.checks ++ [results] →
        ∀ s ∈ o'.repository.selectors, ∀ m ∈ s.members, m.uid ∈ o.repository.reports →
          s.isActive m.uid = true ∧ (m.uid, .recovered) ∈ results ∨ s.isActive m.uid = false) ∧
      (∃ new, Onward o o' new) ∧
      ∀ uid ∈ o'.suspects, uid ∈ o.suspects ∨ ∃ first rest, later = first ++ .monitor :: rest ∧
        uid ∈ (o.after timeout first).repository.reports := by
  have h : Agrees o.progress := ho ▸ (agrees_start hbuild).after before
  have hcoherent : o.repository.Coherent := h.coherent
  refine ⟨fun s hs m hm => h.isActive_eq_false_iff hs hm, ?_, ?_, ?_⟩
  · intro uid huid
    have hout : o.repository.OutOfUse uid := (h.suspects uid).1 huid
    obtain ⟨s, hs, habnormal⟩ := id hout
    refine ⟨⟨s, hs, (hcoherent.sound s hs).abnormal uid habnormal⟩, ?_, ?_⟩
    · intro q draw r hselect
      exact hcoherent.not_mem_candidates hout q (hcoherent.mem_candidates_of_select hselect)
    · intro q excluded hselect
      exact hcoherent.not_mem_candidates hout q (hcoherent.mem_candidates_of_selectExcept hselect)
  · intro uid hknown
    show uid ∈ (o.repository.step (.report uid)).reports
    rw [Repository.step_report, if_pos (Repository.knows_iff.1 hknown)]
    exact List.mem_append_right _ (List.mem_singleton_self uid)
  · rintro later o' rfl
    refine ⟨?_, h.onward_after later, fun uid huid => h.reported_of_after huid⟩
    intro hstage hstage' results hresults s hs m hm huid
    have hsettling := h.settling_after hstage huid timeout later
    rw [Settling, hstage'] at hsettling
    have hlater : Agrees (o.after timeout later).progress := h.after later
    by_cases hactive : s.isActive m.uid = true
    · refine Or.inl ⟨hactive, (hsettling.2 results hresults).resolve_right fun hsuspect => ?_⟩
      rw [(hlater.isActive_eq_false_iff hs hm).2 hsuspect] at hactive
      cases hactive
    · exact Or.inr (Bool.not_eq_true _ ▸ hactive)

/-- A shard with one member. -/
def singleSettings : Settings where
  datasources := [{ uid := "m0" }]
  shards := [{ name := "s0", members := [{ uid := "m0" }] }]

/-- The member is reported, and does not answer validations. -/
def failing : List Event :=
  [.report "m0", .behave "m0" { validateError := some ⟨2006, none, "gone"⟩ }]

/-- A check with one report and one suspect. -/
def oneCheck : List Event :=
  [.monitor, .monitor, .monitor, .monitor, .monitor]

/-- A member that is reported and does not answer is not in use at the end of the next check, and not
selected any more. -/
theorem agreement_single : ∃ (w : World) (o o' : Operation) (s : Selector),
    Repository.build singleSettings = .ok w.repository ∧
    (start w).after 1000 failing = o ∧ o.after 1000 oneCheck = o' ∧
    o'.checks = [[("m0", .failed ⟨2006, none, "gone"⟩)]] ∧
    o'.repository.selectors = [s] ∧ s.isActive "m0" = false ∧
    ∀ q excluded, o'.repository.selectExcept q excluded ≠ .ok (some "m0") := by
  obtain ⟨w, o, o', s, hbuild, ho, ho', hstage, hreports, hchecks, hselectors, hmembers, hstage',
      hchecks'⟩ : ∃ (w : World) (o o' : Operation) (s : Selector),
        Repository.build singleSettings = .ok w.repository ∧
        (start w).after 1000 failing = o ∧ o.after 1000 oneCheck = o' ∧ o.stage = .idle ∧
        o.repository.reports = ["m0"] ∧ o.checks = [] ∧ o'.repository.selectors = [s] ∧
        s.members = [{ uid := "m0" }] ∧ o'.stage = .idle ∧
        o'.checks = [[("m0", .failed ⟨2006, none, "gone"⟩)]] := by
    refine ⟨{ repository := _ }, _, _, _, rfl, rfl, rfl, rfl, rfl, rfl, rfl, rfl, ?_⟩
    exact ⟨by decide +kernel, by decide +kernel⟩
  have hboth : (start w).after 1000 (failing ++ oneCheck) = o' := by
    rw [after, List.foldl_append, ← ho', ← ho]
    rfl
  obtain ⟨-, -, -, hlater⟩ := agreement hbuild ho
  obtain ⟨hsuspects, hnever, -, -⟩ := agreement hbuild hboth
  have hs : s ∈ o'.repository.selectors := by
    rw [hselectors]
    exact List.mem_singleton_self s
  have hm : ({ uid := "m0" } : MemberSettings) ∈ s.members := by
    rw [hmembers]
    exact List.mem_singleton_self _
  have hadded : o'.checks = o.checks ++ [[("m0", .failed ⟨2006, none, "gone"⟩)]] := by
    rw [hchecks, hchecks']
    rfl
  have hinactive : s.isActive "m0" = false := by
    have hcheck := (hlater oneCheck o' ho').1 hstage hstage' _ hadded s hs _ hm
    rw [hreports] at hcheck
    refine (hcheck (List.mem_singleton_self _)).resolve_left fun h => ?_
    simp at h
  exact ⟨w, o, o', s, hbuild, ho, ho', hchecks', hselectors, hinactive,
    (hnever "m0" ((hsuspects s hs _ hm).1 hinactive)).2.2⟩

/-- A report that an earlier check has taken says nothing about later checks: once its datasource has
answered, a check neither validates it again nor takes it out of use. -/
theorem not_validated_in_each_check : ¬ ∀ (settings : Settings) (w : World) (timeout : Nat)
    (before later : List Event) (o o' : Operation) (results : List (String × CheckStatus)),
      Repository.build settings = .ok w.repository → (start w).after timeout before = o →
      o.after timeout later = o' → o.stage = .idle → o'.stage = .idle →
      o'.checks = o.checks ++ [results] →
      ∀ s ∈ o'.repository.selectors, ∀ m ∈ s.members, Event.report m.uid ∈ before →
        s.isActive m.uid = true ∧ (m.uid, .recovered) ∈ results ∨ s.isActive m.uid = false := by
  intro h
  obtain ⟨w, o, o', s, hbuild, ho, ho', hselectors, hmembers, hactive, hstage, hstage',
      hchecks⟩ : ∃ (w : World) (o o' : Operation) (s : Selector),
        Repository.build singleSettings = .ok w.repository ∧
        (start w).after 1000 (.report "m0" :: oneCheck) = o ∧
        o.after 1000 [.monitor, .monitor, .monitor] = o' ∧ o'.repository.selectors = [s] ∧
        s.members = [{ uid := "m0" }] ∧ s.isActive "m0" = true ∧ o.stage = .idle ∧
        o'.stage = .idle ∧ o'.checks = o.checks ++ [[]] := by
    refine ⟨{ repository := _ }, _, _, _, rfl, rfl, rfl, rfl, rfl, rfl, ?_⟩
    exact ⟨by decide +kernel, by decide +kernel, by decide +kernel⟩
  have hwrong := h singleSettings w 1000 _ _ o o' [] hbuild ho ho' hstage hstage' hchecks s
    (by simp [hselectors]) { uid := "m0" } (by simp [hmembers]) List.mem_cons_self
  simp [hactive] at hwrong

end Operation

end ShardRouting
