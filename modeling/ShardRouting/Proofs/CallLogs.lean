import ShardRouting.Proofs.Executions

/-!
# The calls of tasks

A task asks its database for one thing after the other, on one connection, and each call is logged
as it is answered. So the log tells of every task that has ended what became of it: all its calls
were made, or those up to the first that failed, or none where there was no connection.

* `Task.Asked`: the calls that a task has made, by how far it is; `Task.asked_step`: a step logs what
  it adds to them.
* `Execution.Asked`: the same for tasks side by side; `Execution.asked_step`.
* `Schedule.logged_run`: what is logged while a schedule runs.
-/

namespace ShardRouting

/-! ### What is not logged -/

namespace World

variable {w w' : World} {q : ConnectionRequest}

theorem calls_choose {isFirst : Bool} {excluded : List String} {given : Option String}
    (h : w.choose q isFirst excluded = .ok (given, w')) : w'.calls = w.calls := by
  unfold choose at h
  split at h
  · cases hselect : w.draw.2.repository.select q w.draw.1 with
    | error f =>
      simp only [hselect] at h
      cases h
    | ok r =>
      simp only [hselect] at h
      cases h
      rfl
  · cases hselect : w.repository.selectExcept q excluded with
    | error f =>
      rw [hselect] at h
      cases h
    | ok uid =>
      rw [hselect] at h
      cases h
      rfl

/-- A search makes no calls. -/
theorem calls_seekFrom (w : World) (q : ConnectionRequest) (isFirst : Bool)
    (excluded : List String) (left : Nat) :
    (w.seekFrom q isFirst excluded left).2.calls = w.calls := by
  induction left generalizing w isFirst with
  | zero => rfl
  | succ left ih =>
    rw [seekFrom]
    split
    · rfl
    · next hchoose => exact (ih _ false).trans (calls_choose hchoose)
    · next hchoose =>
      have hcalls := calls_choose hchoose
      split <;> exact hcalls

/-- A connection is opened without a call. -/
theorem calls_openConnection (w : World) (uid : String) :
    (w.openConnection uid).2.calls = w.calls := by
  unfold openConnection
  split <;> rfl

end World

/-! ### One task -/

namespace Task

variable {style : ConnectionStyle} {t : Task} {w : World} {kind : StatementKind} {retry : Nat}
  {made : List Call}

/-- A call of a task on a connection. -/
def callOn (t : Task) (loan : Loan) (succeeded : Bool) (call : CallKind × List (List Value)) : Call :=
  ⟨loan.uid, loan.number, call.1, some t.work.sql, call.2, succeeded⟩

/-- A call is logged as a success if it is answered, and as a failure if it is not. -/
theorem call_cases (t : Task) (w : World) (loan : Loan) (call : CallKind × List (List Value)) :
    (∃ b, w.call loan call.1 t.work.sql call.2 = (.ok b, w.logCall (t.callOn loan true call))) ∨
      ∃ e, w.call loan call.1 t.work.sql call.2 =
        (.error e, w.logCall (t.callOn loan false call)) := by
  simp only [World.call]
  cases (w.behaviour loan.uid).failure with
  | none => exact Or.inl ⟨_, rfl⟩
  | some e => exact Or.inr ⟨e, rfl⟩

/-- The calls that a task has made so far, the earliest first. -/
inductive Asked (style : ConnectionStyle) (t : Task) : List Call → Prop where
  /-- A task that is looking for a connection has made none. -/
  | seeking (seeking : t.IsSeeking) : Asked style t []
  /-- So has one that ended without a connection. -/
  | unserved {cause : Cause} (phase : t.phase = .finished (.error cause))
      (cause_eq : cause = .unavailable t.shard ∨ cause = .settings (.noSuchShard t.shard)) :
      Asked style t []
  /-- Before the call that is being answered all succeeded. -/
  | underWay {loan : Loan} {call : CallKind} {params : List (List Value)}
      {done more : List (CallKind × List (List Value))} {changed : Nat}
      (phase : t.phase = .calling loan call params more changed)
      (calls : t.work.calls style = done ++ (call, params) :: more) :
      Asked style t (done.map (t.callOn loan true))
  /-- A task whose statement failed made the calls up to the one that failed. -/
  | refused {loan : Loan} {e : SqlError} {call : CallKind × List (List Value)}
      {done more : List (CallKind × List (List Value))}
      (phase : t.phase = .finished (.error (.fragment t.shard t.work.sql e)))
      (calls : t.work.calls style = done ++ call :: more) :
      Asked style t (done.map (t.callOn loan true) ++ [t.callOn loan false call])
  /-- A task that succeeded made all its calls. -/
  | served {loan : Loan} {o : Output} (phase : t.phase = .finished (.ok o)) :
      Asked style t ((t.work.calls style).map (t.callOn loan true))

/-- On a new connection there are no calls yet. -/
theorem asked_begin (t : Task) (w : World) (loan : Loan) :
    Asked w.style { t with phase := begin w t.work loan } [] := by
  cases hcalls : t.work.calls w.style with
  | nil =>
    have hphase : begin w t.work loan = .finished (.ok (.count 0)) := by rw [begin, hcalls]
    rw [hphase]
    have hserved : Asked w.style { t with phase := .finished (.ok (.count 0)) }
        ((t.work.calls w.style).map (t.callOn loan true)) := .served rfl
    rwa [hcalls] at hserved
  | cons call more =>
    have hphase : begin w t.work loan = .calling loan call.1 call.2 more 0 := by rw [begin, hcalls]
    rw [hphase]
    exact @Asked.underWay w.style _ loan call.1 call.2 [] more 0 rfl hcalls

/-- A search for a connection logs nothing. -/
theorem asked_search (t : Task) (w : World) (retry : Nat) (s : World.Search) :
    (t.search w retry s).2.calls = w.calls ∧ Asked w.style (t.search w retry s).1 [] := by
  have hcalls : (w.seek (t.request retry) s).2.calls = w.calls := w.calls_seekFrom _ _ _ _
  have hseeks : w.Seeks (t.request retry) s.left (w.seek (t.request retry) s) :=
    w.seeks_seekFrom _ _ _ _
  unfold search
  split
  · next loan w' hseek =>
    rw [hseek] at hcalls hseeks
    refine ⟨hcalls, ?_⟩
    cases hseeks with
    | found takes => exact takes.style ▸ asked_begin t w' loan
  · next uid rest w' hseek =>
    rw [hseek] at hcalls
    exact ⟨hcalls, .seeking (Or.inr ⟨uid, rest, rfl⟩)⟩
  · next cause w' hseek =>
    rw [hseek] at hcalls hseeks
    refine ⟨hcalls, ?_⟩
    cases hseeks with
    | failed _ cause_eq => exact .unserved rfl cause_eq

theorem asked_of_isSeeking (hseeking : t.IsSeeking) (h : Asked style t made) : made = [] := by
  cases h with
  | seeking | unserved => rfl
  | underWay phase | refused phase | served phase =>
    rcases hseeking with hphase | ⟨uid, s, hphase⟩ <;> rw [hphase] at phase <;> cases phase

variable {loan : Loan} {call : CallKind} {params : List (List Value)}
  {done more : List (CallKind × List (List Value))} {changed : Nat}

/-- The call that succeeded is the last so far. -/
theorem asked_answered (w : World) (kind : StatementKind) (loan : Loan) (changed : Nat)
    (b : Behaviour) (hcalls : t.work.calls style = done ++ (call, params) :: more) :
    (t.answered w kind loan params more changed b).2.calls = w.calls ∧
      Asked style (t.answered w kind loan params more changed b).1
        (done.map (t.callOn loan true) ++ [t.callOn loan true (call, params)]) := by
  have hmap : done.map (t.callOn loan true) ++ [t.callOn loan true (call, params)] =
      (done ++ [(call, params)]).map (t.callOn loan true) := by
    rw [List.map_append, List.map_singleton]
  have hserved : more = [] → ∀ o : Output, Asked style { t with phase := .finished (.ok o) }
      ((done ++ [(call, params)]).map (t.callOn loan true)) := by
    rintro rfl o
    rw [← hcalls]
    exact .served rfl
  rw [hmap]
  unfold answered
  split
  · next sql ps maxRows hwork =>
    -- a query is one call
    have hlength := congrArg List.length hcalls
    rw [hwork] at hlength
    have hmore : more = [] := by
      apply List.length_eq_zero_iff.1
      simp only [Work.calls, List.length_append, List.length_cons, List.length_nil] at hlength
      omega
    exact ⟨rfl, hserved hmore _⟩
  · cases more with
    | nil => exact ⟨rfl, hserved rfl _⟩
    | cons next more =>
      refine ⟨rfl, .underWay rfl ?_⟩
      rw [List.append_assoc]
      exact hcalls

/-- The call that failed is the last of all. -/
theorem asked_fail (w : World) (kind : StatementKind) (loan : Loan) (e : SqlError)
    (hcalls : t.work.calls style = done ++ (call, params) :: more) :
    (t.fail w kind loan e).2.calls = w.calls ∧ Asked style (t.fail w kind loan e).1
      (done.map (t.callOn loan true) ++ [t.callOn loan false (call, params)]) := by
  have hcounted : (t.fail w kind loan e).2.calls = w.calls := by
    unfold fail
    simp only
    split <;> rfl
  exact ⟨hcounted, Asked.refused rfl hcalls⟩

/-- A step logs the calls that it adds to those of its task. -/
theorem asked_step (h : Asked w.style t made) (kind : StatementKind) (retry : Nat) : ∃ calls,
    (t.step w kind retry).2.calls = w.calls ++ calls ∧
      Asked w.style (t.step w kind retry).1 (made ++ calls) := by
  unfold step
  cases hp : t.phase with
  | queued =>
    obtain rfl := asked_of_isSeeking (Or.inl hp) h
    obtain ⟨hcalls, hasked⟩ := asked_search t w retry (World.Search.start (t.request retry))
    exact ⟨[], hcalls.trans (List.append_nil _).symm, hasked⟩
  | opening uid s =>
    obtain rfl := asked_of_isSeeking (Or.inr ⟨uid, s, hp⟩) h
    have hopened := w.calls_openConnection uid
    simp only
    split
    · next number w' hopen =>
      rw [hopen] at hopened
      refine ⟨[], hopened.trans (List.append_nil _).symm, ?_⟩
      exact (World.opens_openConnection hopen).style ▸ asked_begin t w' ⟨uid, number⟩
    · next e w' hopen =>
      obtain ⟨rfl, -⟩ := World.openConnection_eq_error hopen
      obtain ⟨hcalls, hasked⟩ :=
        asked_search t (w'.reportIfFatal uid e) retry (s.without uid)
      exact ⟨[], hcalls.trans (List.append_nil _).symm, hasked⟩
  | calling loan call params more changed =>
    cases h with
    | seeking seeking =>
      rcases seeking with hphase | ⟨uid, s, hphase⟩ <;> rw [hphase] at hp <;> cases hp
    | unserved phase | refused phase | served phase =>
      rw [phase] at hp
      cases hp
    | underWay phase calls =>
      rw [phase] at hp
      cases hp
      rcases t.call_cases w loan (call, params) with ⟨b, hcall⟩ | ⟨e, hcall⟩
      · obtain ⟨hlogged, hasked⟩ := asked_answered
          (w.logCall (t.callOn loan true (call, params))) kind loan changed b calls
        simp only at hcall ⊢
        rw [hcall]
        exact ⟨_, hlogged, hasked⟩
      · obtain ⟨hlogged, hasked⟩ :=
          asked_fail (w.logCall (t.callOn loan false (call, params))) kind loan e calls
        simp only at hcall ⊢
        rw [hcall]
        exact ⟨_, hlogged, hasked⟩
  | finished result => exact ⟨[], (List.append_nil _).symm, by rwa [List.append_nil]⟩

end Task

/-! ### Tasks side by side -/

namespace Execution

/-- Of calls with the places of their tasks those of one task. -/
def callsOf (i : Nat) (made : List (Nat × Call)) : List Call :=
  (made.filter fun entry => entry.1 = i).map Prod.snd

/-- These are the calls that tasks have made so far, each with the place of its task. -/
def Asked (x : Execution) (made : List (Nat × Call)) : Prop :=
  ∀ (i : Nat) (t : Task), x.tasks[i]? = some t → t.Asked x.world.style (callsOf i made)

variable {x : Execution} {made : List (Nat × Call)}

theorem callsOf_append_self (i : Nat) (made : List (Nat × Call)) (calls : List Call) :
    callsOf i (made ++ calls.map (Prod.mk i)) = callsOf i made ++ calls := by
  have hkeep : (calls.map (Prod.mk i)).filter (fun entry => entry.1 = i) = calls.map (Prod.mk i) :=
    List.filter_eq_self.2 (by simp)
  rw [callsOf, List.filter_append, List.map_append, hkeep, List.map_map]
  exact congrArg _ (List.map_id calls)

theorem callsOf_append_of_ne {i j : Nat} (h : j ≠ i) (made : List (Nat × Call))
    (calls : List Call) : callsOf j (made ++ calls.map (Prod.mk i)) = callsOf j made := by
  have hdrop : (calls.map (Prod.mk i)).filter (fun entry => entry.1 = j) = [] :=
    List.filter_eq_nil_iff.2 (by simp [h.symm])
  rw [callsOf, List.filter_append, hdrop, List.append_nil, callsOf]

theorem asked_nil (hqueued : ∀ t ∈ x.tasks, t.phase = .queued) : x.Asked [] :=
  fun _ _ hi => .seeking (Or.inl (hqueued _ (List.mem_of_getElem? hi)))

/-- A step of a task logs the calls that it adds to those of the tasks. -/
theorem asked_step (h : x.Asked made) (i : Nat) : ∃ calls,
    (x.step i).world.calls = x.world.calls ++ calls ∧
      (x.step i).Asked (made ++ calls.map (Prod.mk i)) := by
  cases hi : x.tasks[i]? with
  | none =>
    refine ⟨[], ?_, ?_⟩
    · rw [step, hi]
      exact (List.append_nil _).symm
    · rwa [step, hi, List.map_nil, List.append_nil]
  | some t =>
    obtain ⟨calls, hcalls, hasked⟩ := Task.asked_step (h i t hi) x.kind x.retry
    have hstyle := (t.goes_step x.world x.kind x.retry).style
    rw [step_of_getElem? hi]
    refine ⟨calls, hcalls, fun j u hj => ?_⟩
    show u.Asked (t.step x.world x.kind x.retry).2.style _
    rw [hstyle]
    by_cases hne : j = i
    · subst hne
      rw [List.getElem?_set_self (List.getElem?_eq_some_iff.1 hi).1] at hj
      obtain rfl := Option.some.inj hj
      rwa [callsOf_append_self]
    · rw [List.getElem?_set_ne (Ne.symm hne)] at hj
      rw [callsOf_append_of_ne hne]
      exact h j u hj

end Execution

/-- While a schedule runs, the calls of its tasks are logged, and nothing else is. -/
theorem Schedule.logged_run {x : Execution} (hqueued : ∀ t ∈ x.tasks, t.phase = .queued)
    (limit : Nat) (deadline : Option Deadline) : ∃ made : List (Nat × Call),
      (run x limit deadline).world.calls = x.world.calls ++ made.map Prod.snd ∧
        (run x limit deadline).Asked made := by
  apply run_induction (P := fun y => ∃ made : List (Nat × Call),
    y.world.calls = x.world.calls ++ made.map Prod.snd ∧ y.Asked made)
  · rintro y i ⟨made, hlog, hasked⟩
    obtain ⟨calls, hcalls, hasked⟩ := Execution.asked_step hasked i
    refine ⟨_, ?_, hasked⟩
    rw [hcalls, hlog, List.append_assoc, List.map_append, List.map_map]
    exact congrArg _ (congrArg _ (List.map_id calls).symm)
  · exact ⟨[], (List.append_nil _).symm, Execution.asked_nil hqueued⟩

end ShardRouting
