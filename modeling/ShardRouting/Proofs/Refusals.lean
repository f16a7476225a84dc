import ShardRouting.Proofs.Executions
import ShardRouting.Proofs.Plans

/-!
# Statements that fail

A statement fails before anything is executed, because it has no plan or is used for what its kind
does not do, or while its tasks run. In the first case nothing has happened; in every case the
failure names the statement.

* `Executor.plan_eq_error`: planning fails for want of a target, and draws at most.
* `Executor.Executes.failure`: the same for an execution that fails with a refusal.
* `Plan.routed_eq_error_of_row`: one row without a target is enough, whichever it is.
* `Executor.refused_unchanged`: refusals leave everything as it was, and failures name statements.
-/

namespace ShardRouting

/-- A cause that is found before anything is executed. -/
def Cause.IsRefusal : Cause → Prop
  | .routing _ | .wrongKind .. => True
  | .fragment .. | .timeout _ | .unavailable _ | .settings _ => False

/-- Tasks do not fail with refusals. -/
theorem Task.FailsWith.not_isRefusal {t : Task} {cause : Cause} (h : t.FailsWith cause) :
    ¬ cause.IsRefusal := by
  cases h <;> exact id

/-! ### Statements without a plan -/

namespace Plan

variable {c : Catalog} {draw : Nat} {s : Statement} {f : Failure} {fault : RoutingFault}

theorem ofStatement_eq_error_iff : ofStatement c draw s = .error f ↔
    ∃ fault, routed c draw s = .error fault ∧ f = ⟨.routing fault, some s.displaySql⟩ := by
  unfold ofStatement
  cases routed c draw s with
  | ok plan => exact ⟨nofun, fun ⟨_, h, _⟩ => nomatch h⟩
  | error fault =>
    constructor
    · rintro ⟨⟩
      exact ⟨fault, rfl, rfl⟩
    · rintro ⟨fault', ⟨⟩, rfl⟩
      rfl

/-- The first row without a target decides what the rows fail with. -/
theorem rowFragments_eq_error {before after : List (List Cell)} {cells : List Cell}
    (hbefore : ∀ row ∈ before, ∃ route,
      c.routeRow s.table (Statement.bindCells s.columns row) = .ok route)
    (hcells : c.routeRow s.table (Statement.bindCells s.columns cells) = .error fault) :
    rowFragments c s (before ++ cells :: after) = .error fault := by
  induction before with
  | nil =>
    rw [List.nil_append, rowFragments, hcells]
    rfl
  | cons row before ih =>
    obtain ⟨route, hroute⟩ := hbefore row List.mem_cons_self
    rw [List.cons_append, rowFragments, hroute]
    show (rowFragments c s (before ++ cells :: after) >>= _) = _
    rw [ih fun row hrow => hbefore row (List.mem_cons_of_mem _ hrow)]
    rfl

/-- A statement that adds rows has no plan if one of them has no target. -/
theorem routed_eq_error_of_row (hkind : s.kind = .insert ∨ s.kind = .merge)
    (hchecked : checkCells s = .ok ()) {before after : List (List Cell)} {cells : List Cell}
    (hrows : s.rows = before ++ cells :: after)
    (hbefore : ∀ row ∈ before, ∃ route,
      c.routeRow s.table (Statement.bindCells s.columns row) = .ok route)
    (hcells : c.routeRow s.table (Statement.bindCells s.columns cells) = .error fault) :
    routed c draw s = .error fault := by
  have hfragments : rowFragments c s s.rows = .error fault :=
    hrows ▸ rowFragments_eq_error hbefore hcells
  unfold routed
  rw [hchecked]
  rcases hkind with h | h
  · simp only [h, hfragments, bind, Except.bind]
  · simp only [h, hfragments, bind, Except.bind]

end Plan

namespace Executor

variable {e : Executor} {w w' : World} {s : Statement} {f : Failure}

/-- Planning draws at most, and fails for want of a target. -/
theorem plan_eq_error (h : e.plan w s = (.error f, w')) :
    w' = w.draw.2 ∧ ∃ fault, Plan.routed e.catalog w.draw.1 s = .error fault ∧
      f = ⟨.routing fault, some s.displaySql⟩ := by
  obtain ⟨hplan, hworld⟩ := Prod.mk.inj h
  exact ⟨hworld.symm, Plan.ofStatement_eq_error_iff.1 hplan⟩

theorem plan_of_routed {fault : RoutingFault}
    (h : Plan.routed e.catalog w.draw.1 s = .error fault) :
    e.plan w s = (.error ⟨.routing fault, some s.displaySql⟩, w.draw.2) :=
  Prod.ext (Plan.ofStatement_eq_error_iff.2 ⟨fault, h, rfl⟩) rfl

/-! ### Executions that fail -/

variable {α : Type} {use : StatementUse} {maxRows : Nat} {fold : Plan → List Output → α}

/-- A failure names its statement, and leaves everything but the coming draws as it was if it is a
refusal. -/
structure Refuses (w : World) (s : Statement) (f : Failure) (w' : World) : Prop where
  /-- The failure names the statement. -/
  statement : f.statement = some s.displaySql
  /-- A refusal comes before anything else happens. -/
  unchanged : f.cause.IsRefusal → ∃ draws, w' = { w with draws }

theorem refuses_of_plan (h : e.plan w s = (.error f, w')) : Refuses w s f w' := by
  obtain ⟨rfl, fault, -, rfl⟩ := plan_eq_error h
  exact ⟨rfl, fun _ => ⟨w.draws.tail, rfl⟩⟩

theorem refuses_of_execute (h : e.execute w s use maxRows fold = (.error f, w')) :
    Refuses w s f w' := by
  have hexecutes := e.executes w s use maxRows fold
  rw [h] at hexecutes
  cases hexecutes with
  | wrongKind => exact ⟨rfl, fun _ => ⟨w.draws, rfl⟩⟩
  | unplanned fit plan => exact refuses_of_plan plan
  | failed fit plan invoke =>
    refine ⟨rfl, fun hrefusal => ?_⟩
    -- tasks have other failures than refusals
    rcases failsWith_of_invoke (fun t ht => (queued_of_mem_tasksFor _ _ _ ht).1) invoke with
      ⟨t, -, hfails⟩ | ⟨ms, rfl⟩
    · exact absurd hrefusal hfails.not_isRefusal
    · exact hrefusal.elim

/-- What fails before it is executed leaves the databases, the repository with its connections,
failures, reports and selectors, the calls and the counts as they were; every failure to plan, to
write or to read names the statement. It is enough for this that one row of several has no target.
There are no failures for want of an output: tasks that succeed give what their statement is for. -/
theorem refused_unchanged (e : Executor) (w : World) (s : Statement) :
    (∀ f w', e.plan w s = (.error f, w') → Refuses w s f w' ∧ f.cause.IsRefusal) ∧
    (∀ f w', e.update w s = (.error f, w') → Refuses w s f w') ∧
    (∀ maxRows f w', e.query w s maxRows = (.error f, w') → Refuses w s f w') ∧
    (∀ before cells after fault, s.kind = .insert ∨ s.kind = .merge →
      Plan.checkCells s = .ok () → s.rows = before ++ cells :: after →
      (∀ row ∈ before, ∃ route,
        e.catalog.routeRow s.table (Statement.bindCells s.columns row) = .ok route) →
      e.catalog.routeRow s.table (Statement.bindCells s.columns cells) = .error fault →
      e.update w s = (.error ⟨.routing fault, some s.displaySql⟩, w.draw.2)) ∧
    (∀ p w₁ outputs w₂, e.invoke w₁ s.kind (updateTasks p) = (.ok outputs, w₂) →
      ∀ o ∈ outputs, ∃ n, o = .count n) ∧
    ∀ p maxRows w₁ outputs w₂, e.invoke w₁ s.kind (queryTasks p maxRows) = (.ok outputs, w₂) →
      ∀ o ∈ outputs, ∃ r, o = .rows r := by
  refine ⟨?_, ?_, ?_, ?_, ?_, ?_⟩
  · intro f w' h
    refine ⟨refuses_of_plan h, ?_⟩
    obtain ⟨-, fault, -, rfl⟩ := plan_eq_error h
    trivial
  · intro f w' h
    rw [update_eq] at h
    exact refuses_of_execute h
  · intro maxRows f w' h
    rw [query_eq] at h
    exact refuses_of_execute h
  · intro before cells after fault hkind hchecked hrows hbefore hcells
    have hquery : s.kind.isQuery = false := by
      rcases hkind with h | h <;> rw [h] <;> rfl
    have hrouted : Plan.routed e.catalog w.draw.1 s = .error fault :=
      Plan.routed_eq_error_of_row hkind hchecked hrows hbefore hcells
    rw [update, hquery, if_neg Bool.false_ne_true, plan_of_routed hrouted]
  · intro p w₁ outputs w₂ h
    have hqueued := fun t => queued_of_mem_tasksFor p 0 .update (t := t)
    exact fun o ho => Output.exists_count (answers_of_invoke hqueued h o ho)
  · intro p maxRows w₁ outputs w₂ h
    have hqueued := fun t => queued_of_mem_tasksFor p maxRows .query (t := t)
    exact fun o ho => Output.exists_rows (answers_of_invoke hqueued h o ho)

/-- A statement that adds four rows, the last of which does not say whose it is. -/
def ownerlessInsert : Statement :=
  { parityInsert with
    rows := parityInsert.rows.take 3 ++ [[.value .null, .value (.text "c")]] }

/-- The last row has no target, so that none of the rows is added; nor can they be read. -/
theorem refused_unchanged_ownerless :
    parityExecutor.update parityWorld ownerlessInsert =
      (.error ⟨.routing (.columnMissing "orders" "user_id"), some ownerlessInsert.displaySql⟩,
        parityWorld.draw.2) ∧
    ∃ f w', parityExecutor.query parityWorld ownerlessInsert 0 = (.error f, w') ∧
      f.cause = .wrongKind .insert .query ∧ Refuses parityWorld ownerlessInsert f w' := by
  obtain ⟨-, -, hquery, hrows, -⟩ := refused_unchanged parityExecutor parityWorld ownerlessInsert
  refine ⟨?_, _, _, rfl, rfl, hquery 0 _ _ rfl⟩
  refine hrows (parityInsert.rows.take 3) [.value .null, .value (.text "c")] [] _ (Or.inl rfl) rfl
    rfl (fun row hrow => ?_) rfl
  have hroutes : ∀ row ∈ parityInsert.rows.take 3, (parityExecutor.catalog.routeRow "orders"
      (Statement.bindCells ["user_id", "note"] row)).isOk := by decide +kernel
  have hok := hroutes row hrow
  cases hroute : parityExecutor.catalog.routeRow "orders"
      (Statement.bindCells ["user_id", "note"] row) with
  | ok route => exact ⟨route, hroute⟩
  | error fault =>
    rw [hroute] at hok
    cases hok

end Executor

end ShardRouting
