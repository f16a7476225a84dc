import Mathlib
import ShardRouting.Proofs.Completion

/-!
# Limits on the rows of reads

A limit on the rows of a read goes two ways: each fragment asks its database for no more rows than
that, and the cursor over the results gives no more. Neither shows. A read with a limit goes through
the same steps as one without, at the same databases, and what is drained from its cursor are the
first rows of what the other gives.

* `Cursor.nexts_eq`: what any number of calls on a cursor give.
* `Fetch.comes_step`: a step of the task of a fragment does not depend on the limit.
* `Execution.Beside`: the tasks of a read with a limit and those without, side by side;
  `Executor.invoke_beside`: what they come to.
* `Executor.query_upTo`: the rows of a read with a limit.
-/

namespace ShardRouting

/-! ### Calls on cursors -/

namespace Cursor

/-- What a number of calls give, and the cursor behind them. -/
def nexts (c : Cursor) : Nat → List (Option (List Value)) × Cursor
  | 0 => ([], c)
  | k + 1 => (c.next.1 :: (c.next.2.nexts k).1, (c.next.2.nexts k).2)

/-- The rows that are left are given in order, and nothing behind them. -/
theorem nexts_eq (c : Cursor) (k : Nat) :
    (c.nexts k).1 = (c.left.take k).map some ++ List.replicate (k - c.left.length) none := by
  induction k generalizing c with
  | zero => simp [nexts]
  | succ k ih =>
    rw [nexts, ih]
    rcases c.next_cases with ⟨hleft, hnone, hnext, -⟩ | ⟨row, hrow, hleft, -⟩
    · rw [hleft, hnone, hnext]
      simp [List.replicate_succ]
    · rw [hleft, hrow]
      simp

/-- The rows that were given are counted. -/
theorem fetched_nexts (c : Cursor) (k : Nat) :
    (c.nexts k).2.fetched = c.fetched + (c.nexts k).1.countP Option.isSome := by
  induction k generalizing c with
  | zero => rfl
  | succ k ih =>
    rw [nexts, ih, List.countP_cons]
    rcases c.next_cases with ⟨-, hnone, -, hfetched⟩ | ⟨row, hrow, -, hfetched⟩
    · rw [hnone, hfetched]
      rfl
    · rw [hrow, hfetched, Option.isSome_some, if_pos rfl]
      omega

/-- Lists of rows may be cut to a limit one by one before they are cut to it together. -/
theorem upTo_flatMap_upTo {α : Type} (n : Nat) (l : List α) (f : α → List (List Value)) :
    upTo n (l.flatMap fun a => upTo n (f a)) = upTo n (l.flatMap f) := by
  -- what is left of the limit behind some of the lists is no more than it
  have htake : ∀ m, m ≤ n →
      (l.flatMap fun a => (f a).take n).take m = (l.flatMap f).take m := by
    induction l with
    | nil => exact fun _ _ => rfl
    | cons a l ih =>
      intro m hm
      rw [List.flatMap_cons, List.flatMap_cons, List.take_append, List.take_append,
        List.take_take, Nat.min_eq_left hm, List.length_take]
      by_cases hlength : (f a).length ≤ n
      · rw [Nat.min_eq_right hlength, ih _ ((Nat.sub_le _ _).trans hm)]
      · rw [Nat.min_eq_left (Nat.le_of_not_le hlength), Nat.sub_eq_zero_of_le hm,
          Nat.sub_eq_zero_of_le (hm.trans (Nat.le_of_not_le hlength)), List.take_zero,
          List.take_zero]
  unfold upTo
  split
  · rfl
  · exact htake n le_rfl

end Cursor

/-! ### Databases that keep to a limit -/

namespace World

/-- What a database gives for a fragment, up to a limit. -/
def given (w : World) (maxRows : Nat) (served : Fragment × String) : ResultSet :=
  (w.behaviour served.2).results served.1.sql served.1.params maxRows

/-- A database that is offered for reads, asked for no more than some number of rows, gives the
first of those that it gives without a limit. -/
def KeepsTo (w : World) (maxRows : Nat) : Prop :=
  ∀ shard uid, w.repository.Offers shard true uid → ∀ sql params,
    ((w.behaviour uid).results sql params maxRows).rows =
      Cursor.upTo maxRows ((w.behaviour uid).results sql params 0).rows

end World

/-! ### One fragment -/

/-- The task of a fragment that is read up to a limit. -/
def Fragment.queryTask (f : Fragment) (maxRows : Nat) (phase : Phase) : Task where
  shard := f.shard
  work := .query f.sql f.params maxRows
  phase := phase

/-- How far a fragment of a read is. -/
inductive FetchStage where
  /-- Its task has not begun. -/
  | queued
  /-- A connection to a datasource is being opened. -/
  | opening (uid : String) (search : World.Search)
  /-- The call is being answered. -/
  | calling (loan : Loan)
  /-- There is no answer. -/
  | failed (cause : Cause)
  /-- A datasource has answered. -/
  | answered (uid : String)

/-- A fragment of a read on its way, whatever the limit is. -/
structure Fetch where
  /-- The fragment. -/
  fragment : Fragment
  /-- How far it is. -/
  stage : FetchStage

namespace Fetch

variable {w w₁ w₂ : World} {a : Fetch} {f : Fragment} {kind : StatementKind} {retry : Nat}
  {r : Nat → Task × World}

/-- The phase of the task of a fragment that is read up to a limit. -/
def phase (w : World) (maxRows : Nat) (a : Fetch) : Phase :=
  match a.stage with
  | .queued => .queued
  | .opening uid search => .opening uid search
  | .calling loan => .calling loan .query [a.fragment.params] [] 0
  | .failed cause => .finished (.error cause)
  | .answered uid => .finished (.ok (.rows (w.given maxRows (a.fragment, uid))))

/-- The task of a fragment that is read up to a limit. -/
def task (w : World) (maxRows : Nat) (a : Fetch) : Task :=
  a.fragment.queryTask maxRows (a.phase w maxRows)

/-- A fragment goes to a datasource that is offered for reads of its shard. -/
def Offered (w : World) (a : Fetch) : Prop :=
  match a.stage with
  | .queued | .failed _ => True
  | .opening uid _ | .answered uid => w.repository.Offers a.fragment.shard true uid
  | .calling loan => w.repository.Offers a.fragment.shard true loan.uid

/-- How long a task waits does not depend on the limit. -/
theorem delay?_task (w w₁ : World) (a : Fetch) (m n : Nat) :
    (a.task w m).delay? w₁ = (a.task w n).delay? w₁ := by
  obtain ⟨f, stage⟩ := a
  cases stage <;> rfl

/-- Nor does whether tasks have ended. -/
theorem all_isFinished (w : World) (fetches : List Fetch) (m n : Nat) :
    (fetches.map (task w m)).all Task.isFinished =
      (fetches.map (task w n)).all Task.isFinished := by
  rw [List.all_map, List.all_map]
  refine congrArg (List.all fetches) (funext fun a => ?_)
  obtain ⟨f, stage⟩ := a
  cases stage <;> rfl

/-- What the task of a fragment has come to: whatever the limit, it is as far, at a datasource that
is offered, and the world is the same. -/
def Comes (w w₁ : World) (f : Fragment) (r : Nat → Task × World) : Prop :=
  ∃ stage w₂, (∀ maxRows, r maxRows = (task w maxRows ⟨f, stage⟩, w₂)) ∧
    Offered w ⟨f, stage⟩ ∧ w₁.Follows w₂

theorem Comes.of_follows (h : Comes w w₂ f r) (hfollows : w₁.Follows w₂) : Comes w w₁ f r := by
  obtain ⟨stage, w₃, hr, hoffered, hbehind⟩ := h
  exact ⟨stage, w₃, hr, hoffered, hfollows.trans hbehind⟩

/-- A search for a connection goes the same way under every limit. -/
theorem comes_search (hfollows : w.Follows w₁) (f : Fragment) (phase : Phase) (retry : Nat)
    (s : World.Search) :
    Comes w w₁ f fun maxRows => (f.queryTask maxRows phase).search w₁ retry s := by
  -- the request does not say how many rows are read
  have hrequest : ∀ maxRows, (f.queryTask maxRows phase).request retry =
      { shard := f.shard, readOnly := true, retry } := fun _ => rfl
  obtain ⟨hbehind, hwithin⟩ := World.seek_within (w := w₁)
    (q := { shard := f.shard, readOnly := true, retry }) rfl s
  unfold Comes Task.search
  simp only [hrequest]
  split
  · next loan w₂ hseek =>
    rw [hseek] at hbehind hwithin
    exact ⟨.calling loan, w₂, fun _ => rfl, hfollows.offers _ _ _ hwithin, hbehind⟩
  · next uid rest w₂ hseek =>
    rw [hseek] at hbehind hwithin
    exact ⟨.opening uid rest, w₂, fun _ => rfl, hfollows.offers _ _ _ hwithin, hbehind⟩
  · next cause w₂ hseek =>
    rw [hseek] at hbehind
    exact ⟨.failed cause, w₂, fun _ => rfl, trivial, hbehind⟩

/-- A step of the task of a fragment does not depend on the limit. -/
theorem comes_step (h : a.Offered w) (hfollows : w.Follows w₁) (kind : StatementKind)
    (retry : Nat) :
    Comes w w₁ a.fragment fun maxRows => (a.task w maxRows).step w₁ kind retry := by
  obtain ⟨f, stage⟩ := a
  cases stage with
  | queued =>
    exact comes_search hfollows f .queued retry
      (World.Search.start { shard := f.shard, readOnly := true, retry })
  | opening uid s =>
    have hopen := w₁.follows_openConnection uid
    simp only [task, phase, Task.step, Fragment.queryTask]
    split
    · next number w₂ hopened =>
      rw [hopened] at hopen
      exact ⟨.calling ⟨uid, number⟩, w₂, fun _ => rfl, h, hopen⟩
    · next e w₂ hopened =>
      rw [hopened] at hopen
      have hreported := hopen.trans (w₂.follows_reportIfFatal uid e)
      exact (comes_search (hfollows.trans hreported) f _ retry _).of_follows hreported
  | calling loan =>
    have hcall := w₁.follows_call loan .query f.sql [f.params]
    simp only [task, phase, Task.step, Fragment.queryTask, Work.sql]
    split
    · next b w₂ hcalled =>
      have hb : b = w.behaviour loan.uid :=
        (World.call_eq_ok (congrArg Prod.fst hcalled)).trans (hfollows.behaviour _)
      rw [hcalled] at hcall
      subst hb
      exact ⟨.answered loan.uid, (w₂.giveBack loan).count (.executed f.shard kind), fun _ => rfl, h,
        hcall.trans ((w₂.follows_giveBack loan).trans (World.follows_count _ _))⟩
    · next e w₂ hcalled =>
      rw [hcalled] at hcall
      exact ⟨.failed (.fragment f.shard f.sql e), _, fun _ => rfl, trivial,
        hcall.trans ((f.queryTask 0 .queued).follows_fail w₂ kind loan e)⟩
  | failed cause => exact ⟨.failed cause, w₁, fun _ => rfl, trivial, World.Follows.refl w₁⟩
  | answered uid => exact ⟨.answered uid, w₁, fun _ => rfl, h, World.Follows.refl w₁⟩

end Fetch

/-! ### Tasks side by side -/

/-- Two executions of a read, up to two limits: their tasks are equally far, and their worlds the
same. -/
def Execution.Beside (w : World) (fragments : List Fragment) (m n : Nat) (x y : Execution) : Prop :=
  ∃ fetches : List Fetch, fetches.map Fetch.fragment = fragments ∧ (∀ a ∈ fetches, a.Offered w) ∧
    w.Follows x.world ∧ x.tasks = fetches.map (Fetch.task w m) ∧
      y = { x with tasks := fetches.map (Fetch.task w n) }

namespace Execution

variable {w : World} {fragments : List Fragment} {m n : Nat} {x y : Execution}

theorem Beside.step (h : Beside w fragments m n x y) (i : Nat) :
    Beside w fragments m n (x.step i) (y.step i) := by
  obtain ⟨fetches, hfragments, hoffered, hfollows, hx, rfl⟩ := h
  cases hi : fetches[i]? with
  | none =>
    have hnone : ∀ k, (fetches.map (Fetch.task w k))[i]? = none := by
      intro k
      rw [List.getElem?_map, hi, Option.map_none]
    have hxi : x.tasks[i]? = none := hx ▸ hnone m
    simp only [Execution.step, hxi, hnone]
    exact ⟨fetches, hfragments, hoffered, hfollows, hx, rfl⟩
  | some a =>
    have hsome : ∀ k, (fetches.map (Fetch.task w k))[i]? = some (a.task w k) := by
      intro k
      rw [List.getElem?_map, hi, Option.map_some]
    have ha := hoffered a (List.mem_of_getElem? hi)
    obtain ⟨stage, w₂, hstep, hstage, hbehind⟩ := Fetch.comes_step ha hfollows x.kind x.retry
    have hkept : (fetches.set i ⟨a.fragment, stage⟩).map Fetch.fragment =
        fetches.map Fetch.fragment := map_set_of_eq hi rfl
    simp only [Execution.step, hsome, hstep, hx, ← List.map_set]
    exact ⟨fetches.set i ⟨a.fragment, stage⟩, hkept.trans hfragments,
      forall_mem_set hoffered hstage, hfollows.trans hbehind, rfl, rfl⟩

/-- Reads up to two limits run alike. -/
theorem simulation_beside (w : World) (fragments : List Fragment) (m n : Nat) :
    Schedule.Simulation (Beside w fragments m n) where
  step i h := h.step i
  delay i h := by
    obtain ⟨fetches, -, -, -, hx, rfl⟩ := h
    simp only [delay?, hx, List.getElem?_map]
    cases fetches[i]? with
    | none => rfl
    | some a => exact a.delay?_task w _ n m
  bound h := by
    obtain ⟨fetches, -, -, -, hx, rfl⟩ := h
    refine ⟨?_, ?_⟩
    · simp only [totalBound, hx, List.map_map]
      rfl
    · rw [hx, List.length_map, List.length_map]

end Execution

/-! ### Answers -/

/-- The fragments of a plan with the datasources that have answered for them, each of which is
offered for reads of its shard. -/
def World.Serves (w : World) (fragments : List Fragment) (served : List (Fragment × String)) :
    Prop :=
  served.map Prod.fst = fragments ∧ ∀ a ∈ served, w.repository.Offers a.1.shard true a.2

namespace Executor

variable {e : Executor} {w w₁ : World} {p : Plan} {s : Statement} {maxRows : Nat}

/-- Tasks that have ended have come to the same failure under every limit, or to what the same
datasources give up to it. -/
theorem collect_fetches {fetches : List Fetch} (hoffered : ∀ a ∈ fetches, a.Offered w) {k : Nat}
    (hfinished : (fetches.map (Fetch.task w k)).all Task.isFinished = true) :
    (∃ cause, ∀ n,
      collect ((fetches.map (Fetch.task w n)).filterMap Task.result?) = .error cause) ∨
    ∃ served, w.Serves (fetches.map Fetch.fragment) served ∧ ∀ n,
      collect ((fetches.map (Fetch.task w n)).filterMap Task.result?) =
        .ok ((served.map (w.given n)).map .rows) := by
  induction fetches with
  | nil => exact Or.inr ⟨[], ⟨rfl, nofun⟩, fun _ => rfl⟩
  | cons a fetches ih =>
    rw [List.map_cons, List.all_cons, Bool.and_eq_true_iff] at hfinished
    obtain ⟨ha, hrest⟩ := List.forall_mem_cons.1 hoffered
    obtain ⟨f, stage⟩ := a
    cases stage with
    | queued | opening | calling => cases hfinished.1
    | failed cause => exact Or.inl ⟨cause, fun _ => rfl⟩
    | answered uid =>
      have hcons : ∀ n, collect (((⟨f, .answered uid⟩ :: fetches).map
          (Fetch.task w n)).filterMap Task.result?) =
            collect (.ok (.rows (w.given n (f, uid))) ::
              (fetches.map (Fetch.task w n)).filterMap Task.result?) := fun _ => rfl
      rcases ih hrest hfinished.2 with ⟨cause, herror⟩ | ⟨served, ⟨hfst, hserved⟩, hok⟩
      · refine Or.inl ⟨cause, fun n => ?_⟩
        rw [hcons, collect, herror n]
      · refine Or.inr ⟨(f, uid) :: served, ⟨?_, List.forall_mem_cons.2 ⟨ha, hserved⟩⟩, fun n => ?_⟩
        · rw [List.map_cons, hfst, List.map_cons]
        · rw [hcons, collect, hok n, List.map_cons, List.map_cons]

/-- The tasks of a read up to two limits are side by side at their ends. -/
theorem ended_beside (e : Executor) (w : World) (kind : StatementKind) (p : Plan) (m n : Nat) :
    Execution.Beside w p.fragments m n (e.ended w kind (queryTasks p m))
      (e.ended w kind (queryTasks p n)) := by
  let fetches : List Fetch := p.fragments.map fun f => ⟨f, .queued⟩
  have htasks : ∀ k, queryTasks p k = fetches.map (Fetch.task w k) := by
    intro k
    rw [List.map_map]
    rfl
  have hlength : (queryTasks p n).length = (queryTasks p m).length := by
    rw [queryTasks, queryTasks, List.length_map, List.length_map]
  have hfragments : fetches.map Fetch.fragment = p.fragments := by
    rw [List.map_map]
    exact List.map_id _
  have hoffered : ∀ a ∈ fetches, a.Offered w := by
    intro a ha
    obtain ⟨f, -, rfl⟩ := List.mem_map.1 ha
    trivial
  unfold ended
  rw [hlength]
  refine (Execution.simulation_beside w p.fragments m n).run ?_ e.limit _
  refine ⟨fetches, hfragments, hoffered, World.Follows.refl w, htasks m, ?_⟩
  rw [htasks n]

/-- Whatever the limits, the tasks of a read come to the same failure, or to what the same
datasources give up to them, and leave the same world. -/
theorem invoke_beside (e : Executor) (w : World) (kind : StatementKind) (p : Plan) (m n : Nat) :
    ∃ w', (∃ cause, ∀ k ∈ [m, n], e.invoke w kind (queryTasks p k) = (.error cause, w')) ∨
      ∃ served, w.Serves p.fragments served ∧ ∀ k ∈ [m, n], e.invoke w kind (queryTasks p k) =
        (.ok ((served.map (w.given k)).map .rows), w') := by
  obtain ⟨fetches, hfragments, hoffered, -, hm, hn⟩ := e.ended_beside w kind p m n
  have hended : ∀ k ∈ [m, n], e.ended w kind (queryTasks p k) =
      { e.ended w kind (queryTasks p m) with tasks := fetches.map (Fetch.task w k) } := by
    refine List.forall_mem_cons.2 ⟨?_, List.forall_mem_singleton.2 hn⟩
    rw [← hm]
  generalize e.ended w kind (queryTasks p m) = x at hended
  cases hfinished : (fetches.map (Fetch.task w m)).all Task.isFinished with
  | false =>
    refine ⟨x.world.count (.timedOut kind), Or.inl ⟨.timeout (e.session.timeout.getD 0), ?_⟩⟩
    intro k hk
    have hnot : (fetches.map (Fetch.task w k)).all Task.isFinished = false :=
      (Fetch.all_isFinished w fetches k m).trans hfinished
    rw [invoke_eq, hended k hk, Execution.isFinished, hnot]
    rfl
  | true =>
    have hall : ∀ k, (fetches.map (Fetch.task w k)).all Task.isFinished = true :=
      fun k => (Fetch.all_isFinished w fetches k m).trans hfinished
    refine ⟨x.world, ?_⟩
    rcases collect_fetches hoffered hfinished with ⟨cause, herror⟩ | ⟨served, hserved, hok⟩
    · refine Or.inl ⟨cause, fun k hk => ?_⟩
      rw [invoke_eq, hended k hk, Execution.isFinished, if_pos (hall k), herror k]
    · refine Or.inr ⟨served, hfragments ▸ hserved, fun k hk => ?_⟩
      rw [invoke_eq, hended k hk, Execution.isFinished, if_pos (hall k), hok k]

/-- Whatever the limits, a read fails alike, or gives what the same datasources give up to them, and
leaves the same world. -/
theorem query_beside (e : Executor) (w : World) (s : Statement) (m n : Nat) :
    ∃ w', (∃ f, ∀ k ∈ [m, n], e.query w s k = (.error f, w')) ∨
      ∃ p w₁ served, e.plan w s = (.ok p, w₁) ∧ w.Serves p.fragments served ∧
        ∀ k ∈ [m, n], e.query w s k = (.ok (Cursor.ofResults (served.map (w.given k)) k), w') := by
  cases hkind : s.kind.isQuery with
  | false =>
    refine ⟨w, Or.inl ⟨failure s (.wrongKind s.kind .query), fun k _ => ?_⟩⟩
    rw [query, hkind]
    rfl
  | true =>
    have hfit : StatementUse.query.admits s.kind = true := hkind
    simp only [query_eq, execute, if_pos hfit]
    rcases hplan : e.plan w s with ⟨f | p, w₁⟩
    · exact ⟨w₁, Or.inl ⟨f, fun _ _ => rfl⟩⟩
    · -- a plan takes at most an outcome of a random choice from the world
      obtain rfl : w.draw.2 = w₁ := congrArg Prod.snd hplan
      simp only [tasksFor]
      obtain ⟨w', ⟨cause, herror⟩ | ⟨served, hserved, hok⟩⟩ :=
        e.invoke_beside w.draw.2 s.kind p m n
      · refine ⟨w', Or.inl ⟨failure s cause, fun k hk => ?_⟩⟩
        simp only [herror k hk]
      · refine ⟨w', Or.inr ⟨p, w.draw.2, served, rfl, hserved, fun k hk => ?_⟩⟩
        simp only [hok k hk, results_map_rows]
        rfl

/-- A read with a limit leaves the world that the same read without one leaves. It fails where that
fails, and else its cursor gives the first rows of what the datasources that serve the fragments of
the plan give without a limit, one behind the other: of these the other cursor gives all.

Calls on a cursor over any results give the rows up to its limit in order and then nothing, and the
cursor counts the rows that it has given. -/
theorem query_upTo (hkeeps : w.KeepsTo maxRows) (e : Executor) (s : Statement) :
    ((e.query w s maxRows).2 = (e.query w s 0).2 ∧
      ((∃ f, (e.query w s maxRows).1 = .error f ∧ (e.query w s 0).1 = .error f) ∨
        ∃ p w₁ served c d, e.plan w s = (.ok p, w₁) ∧ w.Serves p.fragments served ∧
          (e.query w s maxRows).1 = .ok c ∧ (e.query w s 0).1 = .ok d ∧
          d.toRows.1 = served.flatMap (fun a => (w.given 0 a).rows) ∧
          c.toRows.1 = Cursor.upTo maxRows (served.flatMap fun a => (w.given 0 a).rows))) ∧
    ∀ (results : List ResultSet) (limit k : Nat) (rows : List (List Value)),
      rows = Cursor.upTo limit (results.flatMap ResultSet.rows) →
      ((Cursor.ofResults results limit).nexts k).1 =
        (rows.take k).map some ++ List.replicate (k - rows.length) none ∧
      ((Cursor.ofResults results limit).nexts k).2.fetched =
        ((Cursor.ofResults results limit).nexts k).1.countP Option.isSome := by
  refine ⟨?_, fun results limit k rows hrows => ⟨?_, ?_⟩⟩
  · obtain ⟨w', ⟨f, herror⟩ | ⟨p, w₁, served, hplan, hserved, hok⟩⟩ :=
      e.query_beside w s maxRows 0
    · rw [herror maxRows (by simp), herror 0 (by simp)]
      exact ⟨rfl, Or.inl ⟨f, rfl, rfl⟩⟩
    · rw [hok maxRows (by simp), hok 0 (by simp)]
      refine ⟨rfl, Or.inr ⟨p, w₁, served, _, _, hplan, hserved, rfl, rfl, ?_, ?_⟩⟩
      · rw [Cursor.toRows_ofResults, List.flatMap_map]
        rfl
      · have hcut : served.flatMap (fun a => (w.given maxRows a).rows) =
            served.flatMap fun a => Cursor.upTo maxRows (w.given 0 a).rows :=
          List.flatMap_congr fun a ha => hkeeps _ _ (hserved.2 a ha) _ _
        rw [Cursor.toRows_ofResults, List.flatMap_map, hcut, Cursor.upTo_flatMap_upTo]
  · rw [Cursor.nexts_eq, Cursor.left_ofResults, ← hrows]
  · rw [Cursor.fetched_nexts]
    exact Nat.zero_add _

/-- The two shards with two rows in each. -/
def rowsWorld : World :=
  (parityWorld.setBehaviour "d0" { rows := [[.int 2], [.int 4]] }).setBehaviour "d1"
    { rows := [[.int 3], [.int 5]] }

/-- A statement that reads all rows. -/
def ordersSelect : Statement where
  kind := .select
  table := "orders"

/-- Of the four rows the first three are read. -/
theorem query_upTo_three : rowsWorld.KeepsTo 3 ∧
    ∃ c w', parityExecutor.query rowsWorld ordersSelect 3 = (.ok c, w') ∧
      c.toRows.1 = [[.int 2], [.int 4], [.int 3]] := by
  have hkeeps : rowsWorld.KeepsTo 3 := by
    intro shard uid _ sql params
    rw [rowsWorld, World.behaviour, World.setBehaviour, World.backend_setBackend]
    split
    · rfl
    · rw [World.setBehaviour, World.backend_setBackend]
      split <;> rfl
  have hall : ((parityExecutor.query rowsWorld ordersSelect 0).1.toOption.map
      fun d => d.toRows.1) = some [[.int 2], [.int 4], [.int 3], [.int 5]] := by decide +kernel
  obtain ⟨⟨-, ⟨f, -, herror⟩ | ⟨p, w₁, served, c, d, -, -, hc, hd, hall', hthree⟩⟩, -⟩ :=
    query_upTo hkeeps parityExecutor ordersSelect
  · rw [herror] at hall
    cases hall
  · rw [hd] at hall
    have hrows : d.toRows.1 = [[.int 2], [.int 4], [.int 3], [.int 5]] := Option.some.inj hall
    refine ⟨hkeeps, c, _, Prod.ext hc rfl, ?_⟩
    rw [hthree, ← hall', hrows]
    rfl

end Executor

end ShardRouting
