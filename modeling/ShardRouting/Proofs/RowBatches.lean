import Mathlib
import ShardRouting.Proofs.Candidates
import ShardRouting.Proofs.Groups
import ShardRouting.Proofs.Plans
import ShardRouting.Proofs.TaskRuns

/-!
# Rows that are added together

Each row that a statement adds is a fragment of its own, and fragments with the same text on the
same shard are executed as one task. No row is lost by that, and none is added twice.

* `Row.Holds`: the values that cells assign to columns; `Statement.holds_bindCells`.
* `Fragment.Adds`: a fragment writes and binds the cells of a row, in one physical table.
* `Plan.AddsRow`: what a fragment is to the row that it adds; `Plan.addsRow_of_ofStatement`.
* `Executor.Batches`: what tasks are to fragments; `Executor.batches_updateTasks`.
* `Executor.update_rows_of_plan`: rows that are added together are counted as if they were added one
  by one.
-/

namespace ShardRouting

/-! ### Rows and their cells -/

namespace Cell

/-- A cell of a column has a value. -/
def Fills (entry : String × Cell) (column : String) (v : Value) : Prop :=
  Identifier.normalize entry.1 = column ∧ entry.2 = .value v ∧ v ≠ .null

/-- The last of the cells of a column that have a value has this one. -/
def LastFills (entries : List (String × Cell)) (column : String) (v : Value) : Prop :=
  ∃ before entry behind, entries = before ++ entry :: behind ∧ Fills entry column v ∧
    ∀ later ∈ behind, ∀ u, ¬ Fills later column u

variable {entries : List (String × Cell)} {entry : String × Cell} {column : String} {v : Value}

/-- Behind others a cell is the last. -/
theorem lastFills_append_singleton : LastFills (entries ++ [entry]) column v ↔
    Fills entry column v ∨ (∀ u, ¬ Fills entry column u) ∧ LastFills entries column v := by
  constructor
  · rintro ⟨before, found, behind, heq, hfills, hlater⟩
    rcases List.eq_nil_or_concat behind with rfl | ⟨behind, last, rfl⟩
    · obtain ⟨-, hentry⟩ := List.append_inj' heq rfl
      obtain rfl := List.singleton_injective hentry
      exact Or.inl hfills
    · rw [List.concat_eq_append, ← List.cons_append, ← List.append_assoc] at heq
      obtain ⟨rfl, hentry⟩ := List.append_inj' heq rfl
      obtain rfl := List.singleton_injective hentry
      refine Or.inr ⟨hlater _ (by simp), before, found, behind, rfl, hfills, fun later hmem => ?_⟩
      exact hlater later (by simp [hmem])
  · rintro (hfills | ⟨hnone, before, found, behind, rfl, hfills, hlater⟩)
    · exact ⟨entries, entry, [], rfl, hfills, nofun⟩
    · refine ⟨before, found, behind ++ [entry], by simp, hfills, fun later hmem => ?_⟩
      rcases List.mem_append.1 hmem with hmem | hmem
      · exact hlater later hmem
      · rw [List.mem_singleton.1 hmem]
        exact hnone

theorem fills_iff_of_present {name : String} {u : Value} (h : u ≠ .null) :
    Fills (name, .value u) column v ↔ Identifier.normalize name = column ∧ u = v := by
  constructor
  · rintro ⟨hname, heq, -⟩
    exact ⟨hname, Cell.value.inj heq⟩
  · rintro ⟨hname, rfl⟩
    exact ⟨hname, rfl, h⟩

end Cell

/-- A row holds cells: in each column the value of the last cell of the column that has one. -/
def Row.Holds (row : Row) (columns : List String) (cells : List Cell) : Prop :=
  ∀ column v, row.get? column = some v ↔ Cell.LastFills (columns.zip cells) column v

/-- The row that is bound for cells holds them. -/
theorem Statement.holds_bindCells (columns : List String) (cells : List Cell) :
    (Statement.bindCells columns cells).Holds columns cells := by
  intro column v
  unfold Statement.bindCells
  induction columns.zip cells using List.reverseRecOn with
  | nil =>
    constructor
    · exact nofun
    · rintro ⟨before, entry, behind, heq, -⟩
      simp at heq
  | append_singleton entries entry ih =>
    obtain ⟨name, cell⟩ := entry
    rw [List.foldl_append, List.foldl_cons, List.foldl_nil, Cell.lastFills_append_singleton, ← ih]
    -- a cell without a value leaves the row as it is
    have hskip : (∀ u, ¬ Cell.Fills (name, cell) column u) → ∀ row : Row,
        (row.get? column = some v ↔ Cell.Fills (name, cell) column v ∨
          (∀ u, ¬ Cell.Fills (name, cell) column u) ∧ row.get? column = some v) := by
      intro hnone row
      rw [or_iff_right (hnone v), and_iff_right hnone]
    match cell with
    | .useDefault => exact hskip (fun u h => Cell.noConfusion h.2.1) _
    | .value u =>
      by_cases hnull : u = .null
      · subst hnull
        exact hskip (fun u h => h.2.2 (Cell.value.inj h.2.1).symm) _
      · have hpresent : u.isNull = false := by
          cases u <;> first | rfl | exact absurd rfl hnull
        simp only [hpresent, Bool.false_eq_true, if_false, Row.get?_insert,
          Cell.fills_iff_of_present hnull]
        split
        · next h => simp [h]
        · next h => simp [Ne.symm h]

/-! ### Rows and fragments -/

/-- A fragment adds a row of cells to a physical table: it names the columns, writes the cells one by
one and binds the values that these have. -/
structure Fragment.Adds (f : Fragment) (s : Statement) (t : Target) (cells : List Cell) : Prop where
  /-- The fragment is sent to the shard of the table. -/
  shard : f.shard = t.shard
  /-- The table is the only one that it changes. -/
  targets : f.targets = [t]
  /-- The cells stand behind the columns, which in a merge are followed by those of its key. -/
  text : ∃ texts, List.Forall₂ Cell.Written cells texts ∧
    f.sql = (if s.kind = .merge then "MERGE INTO " else "INSERT INTO ") ++
      (t.object ++ t.suffix) ++ " (" ++ ", ".intercalate s.columns ++ ") " ++
      (if s.kind = .merge ∧ s.keyColumns ≠ [] then "KEY (" ++ ", ".intercalate s.keyColumns ++ ") "
        else "") ++
      "VALUES (" ++ ", ".intercalate texts ++ ")"
  /-- The values are those of the cells, in order. -/
  values : BoundValues cells f.params

/-- A row of a table that is not copied goes to one target, by itself. -/
theorem Catalog.exists_target_of_routeRow {c : Catalog} {table : String} {row : Row} {route : Route}
    (hcopied : ∀ t shards, c.find table = .ok t → t.placement ≠ .copied shards)
    (h : c.routeRow table row = .ok route) : ∃ target, route = { targets := [target] } := by
  obtain ⟨t, hfind, hroute⟩ := bind_eq_ok_iff.1 h
  cases hp : t.placement with
  | whole shard =>
    rw [hp] at hroute
    cases hroute
    refine ⟨⟨shard, t.name, ""⟩, ?_⟩
    rw [Table.allTargets, hp]
  | copied shards => exact absurd hp (hcopied t shards hfind)
  | routed r =>
    rw [routeRow_routed hfind hp] at h
    obtain ⟨targets, -, h⟩ := bind_eq_ok_iff.1 h
    split at h
    · next hone =>
      obtain ⟨target, rfl⟩ := List.length_eq_one_iff.1 hone
      cases h
      exact ⟨target, rfl⟩
    · cases h

namespace Plan

/-- The fragment for a row adds its cells. -/
theorem adds_insertFragment (s : Statement) (cells : List Cell) (t : Target) :
    (insertFragment s cells t).Adds s t cells :=
  ⟨rfl, rfl, ⟨_, forall₂_written, rfl⟩, boundValues_filterMap cells⟩

/-- A fragment adds a row of a statement: it adds the cells of the row where the values that these
assign to columns are routed to, which is one target. -/
def AddsRow (c : Catalog) (s : Statement) (i : Nat) (f : Fragment) : Prop :=
  ∃ cells target, s.rows[i]? = some cells ∧ (s.rowValues i).Holds s.columns cells ∧
    c.routeRow s.table (s.rowValues i) = .ok { targets := [target] } ∧ f.Adds s target cells

variable {c : Catalog} {draw : Nat} {s : Statement} {p : Plan}

/-- The rows that a statement adds have one fragment each, if each goes to one target. -/
theorem forall₂_rowFragments
    (hcopied : ∀ t shards, c.find s.table = .ok t → t.placement ≠ .copied shards)
    {rows : List (List Cell)} {fragments : List Fragment} {broadcast : Bool}
    (h : rowFragments c s rows = .ok (fragments, broadcast)) :
    List.Forall₂ (fun cells f => ∃ target,
      c.routeRow s.table (Statement.bindCells s.columns cells) = .ok { targets := [target] } ∧
        f = insertFragment s cells target) rows fragments ∧ broadcast = false := by
  obtain ⟨routes, hroutes, rfl, rfl⟩ := rowFragments_eq_ok_iff.1 h
  clear h
  induction hroutes with
  | nil => exact ⟨.nil, rfl⟩
  | @cons cells route rows routes hroute hroutes ih =>
    obtain ⟨target, rfl⟩ := Catalog.exists_target_of_routeRow hcopied hroute
    exact ⟨.cons ⟨target, hroute, rfl⟩ ih.1, ih.2⟩

/-- A plan that adds rows to a table that is not copied has one fragment for each row, in the order
of the rows. -/
theorem addsRow_of_ofStatement (hkind : s.kind = .insert ∨ s.kind = .merge)
    (hcopied : ∀ t shards, c.find s.table = .ok t → t.placement ≠ .copied shards)
    (h : ofStatement c draw s = .ok p) :
    p.kind = s.kind ∧ p.broadcast = false ∧ p.fragments.length = s.rows.length ∧
      ∀ i f, p.fragments[i]? = some f → AddsRow c s i f := by
  obtain ⟨-, hpkind, hrows⟩ := (routed_rows_iff hkind).1 (ofStatement_eq_ok_iff.1 h)
  obtain ⟨hfragments, hbroadcast⟩ := forall₂_rowFragments hcopied hrows
  refine ⟨hpkind, hbroadcast, hfragments.length_eq.symm, fun i f hf => ?_⟩
  obtain ⟨hi, rfl⟩ := List.getElem?_eq_some_iff.1 hf
  have hi' : i < s.rows.length := hfragments.length_eq ▸ hi
  obtain ⟨target, hroute, hinsert⟩ := hfragments.get hi' hi
  have hrow : s.rows[i]? = some s.rows[i] := List.getElem?_eq_getElem hi'
  have hvalues : s.rowValues i = Statement.bindCells s.columns s.rows[i] := by
    rw [Statement.rowValues, hrow]
  refine ⟨s.rows[i], target, hrow, ?_, ?_, ?_⟩
  · rw [hvalues]
    exact Statement.holds_bindCells _ _
  · rw [hvalues]
    exact hroute
  · rw [show p.fragments[i] = insertFragment s s.rows[i] target from hinsert]
    exact adds_insertFragment _ _ _

end Plan

/-! ### Fragments and tasks -/

/-- What fragments have in common that are executed together: the shard and the text. -/
def Fragment.key (f : Fragment) : String × String :=
  (f.shard, f.sql)

namespace Task

/-- The shard and the text of a task. -/
def key (t : Task) : String × String :=
  (t.shard, t.work.sql)

/-- The writes of a task: the shard, the text and the values of each. -/
def writes (t : Task) : List (String × String × List Value) :=
  t.work.lists.map fun params => (t.shard, t.work.sql, params)

end Task

namespace Executor

/-- What tasks are to the fragments that they carry out. -/
structure Batches (fragments : List Fragment) (tasks : List Task) : Prop where
  /-- No two tasks have the same text on the same shard. -/
  nodup : (tasks.map Task.key).Nodup
  /-- Each fragment has a task, and each task a fragment. -/
  covers : ∀ key, key ∈ tasks.map Task.key ↔ key ∈ fragments.map Fragment.key
  /-- The tasks are in the order in which their texts and shards first appear. -/
  ordered : (tasks.map Task.key).Pairwise fun a b =>
    (fragments.map Fragment.key).idxOf a < (fragments.map Fragment.key).idxOf b
  /-- A task carries the values of the fragments with its text and its shard, in their order. -/
  lists : ∀ t ∈ tasks,
    t.work.lists = (fragments.filter fun f => f.key == t.key).map Fragment.params
  /-- One list of values is written by itself, more of them as a batch. -/
  work : ∀ t ∈ tasks, (∃ params, t.work = .update t.work.sql params) ∨
    ∃ lists, 1 < lists.length ∧ t.work = .batch t.work.sql lists
  /-- What fragments write is written once. -/
  once : (tasks.flatMap Task.writes).Perm (fragments.map fun f => (f.shard, f.sql, f.params))

variable {sql : String} {lists : List (List Value)}

theorem sql_groupWork : (groupWork sql lists).sql = sql := by
  unfold groupWork
  split <;> rfl

theorem lists_groupWork : (groupWork sql lists).lists = lists := by
  unfold groupWork
  split <;> rfl

theorem readOnly_groupWork : (groupWork sql lists).readOnly = false := by
  unfold groupWork
  split <;> rfl

theorem groupWork_of_ne_nil (h : lists ≠ []) :
    (∃ params, groupWork sql lists = .update sql params) ∨
      1 < lists.length ∧ groupWork sql lists = .batch sql lists := by
  match lists with
  | [] => exact absurd rfl h
  | [params] => exact Or.inl ⟨params, rfl⟩
  | _ :: _ :: rest => exact Or.inr ⟨Nat.succ_lt_succ (Nat.succ_pos _), rfl⟩

/-- The task for the fragments with one text on one shard. -/
def groupTask (fragments : List Fragment) (key : String × String) : Task where
  shard := key.1
  work := groupWork key.2 ((fragments.filter fun f => f.key == key).map Fragment.params)

variable {fragments : List Fragment} {p : Plan}

theorem key_groupTask (fragments : List Fragment) (key : String × String) :
    (groupTask fragments key).key = key :=
  Prod.ext rfl sql_groupWork

/-- Rows that are added have one task for each text on each shard. -/
theorem updateTasks_eq (hkind : p.kind = .insert ∨ p.kind = .merge) :
    updateTasks p = (p.fragments.map Fragment.key).eraseDups.map (groupTask p.fragments) := by
  rw [updateTasks, if_pos hkind, groups, List.map_map]
  rfl

/-- What the task for one text on one shard writes is what the fragments with them write. -/
theorem writes_groupTask (fragments : List Fragment) (key : String × String) :
    (groupTask fragments key).writes =
      (fragments.filter fun f => f.key == key).map fun f => (f.shard, f.sql, f.params) := by
  have hlists : (groupTask fragments key).work.lists =
      (fragments.filter fun f => f.key == key).map Fragment.params := lists_groupWork
  have hsql : (groupTask fragments key).work.sql = key.2 := sql_groupWork
  rw [Task.writes, hlists, hsql, List.map_map]
  refine List.map_congr_left fun f hf => ?_
  have hkey : f.key = key := beq_iff_eq.1 (List.mem_filter.1 hf).2
  rw [← hkey]
  rfl

/-- Rows that are added are grouped by shard and text, and each is written once. -/
theorem batches_updateTasks (hkind : p.kind = .insert ∨ p.kind = .merge) :
    Batches p.fragments (updateTasks p) := by
  rw [updateTasks_eq hkind]
  have hkeys : ((p.fragments.map Fragment.key).eraseDups.map (groupTask p.fragments)).map Task.key =
      (p.fragments.map Fragment.key).eraseDups := by
    rw [List.map_map]
    exact (List.map_congr_left fun key _ => key_groupTask p.fragments key).trans (List.map_id _)
  constructor
  case nodup =>
    rw [hkeys]
    exact nodup_eraseDups _
  case covers =>
    intro key
    rw [hkeys, List.mem_eraseDups]
  case ordered =>
    rw [hkeys]
    exact pairwise_idxOf_eraseDups _
  case lists =>
    intro t ht
    obtain ⟨key, -, rfl⟩ := List.mem_map.1 ht
    rw [key_groupTask]
    exact lists_groupWork
  case work =>
    intro t ht
    obtain ⟨key, hkey, rfl⟩ := List.mem_map.1 ht
    obtain ⟨f, hf, rfl⟩ := List.mem_map.1 (List.mem_eraseDups.1 hkey)
    have hne : (p.fragments.filter fun g => g.key == f.key).map Fragment.params ≠ [] := by
      rw [Ne, List.map_eq_nil_iff]
      exact List.ne_nil_of_mem (List.mem_filter.2 ⟨hf, beq_self_eq_true _⟩)
    have hsql : (groupTask p.fragments f.key).work.sql = f.key.2 := sql_groupWork
    rw [hsql]
    exact (groupWork_of_ne_nil hne).imp id fun h => ⟨_, h⟩
  case once =>
    rw [List.flatMap_map, List.flatMap_congr fun key _ => writes_groupTask p.fragments key,
      ← List.map_flatMap]
    exact (perm_flatMap_eraseDups Fragment.key p.fragments).map _

/-- The tasks of a plan that adds rows are writes that have not begun. -/
theorem queued_of_mem_updateTasks (hkind : p.kind = .insert ∨ p.kind = .merge) {t : Task}
    (ht : t ∈ updateTasks p) : t.work.readOnly = false ∧ t.phase = .queued := by
  rw [updateTasks_eq hkind] at ht
  obtain ⟨key, -, rfl⟩ := List.mem_map.1 ht
  exact ⟨readOnly_groupWork, rfl⟩

/-! ### Sums -/

variable {count : String → String → List Value → Nat}

/-- The number of rows that fragments change, by a count. -/
def countOf (count : String → String → List Value → Nat) (fragments : List Fragment) : Nat :=
  (fragments.map fun f => count f.shard f.sql f.params).sum

/-- The totals of tasks add up to what is counted of their writes. -/
theorem sum_total_eq (tasks : List Task) :
    (tasks.map (Task.total count)).sum =
      ((tasks.flatMap Task.writes).map fun w => count w.1 w.2.1 w.2.2).sum := by
  induction tasks with
  | nil => rfl
  | cons t tasks ih =>
    rw [List.map_cons, List.sum_cons, ih, List.flatMap_cons, List.map_append, List.sum_append]
    congr 1
    rw [Task.total, Task.writes, List.map_map]
    rfl

/-- Tasks that write what fragments write change as much. -/
theorem Batches.sum_total {tasks : List Task} (h : Batches fragments tasks) :
    (tasks.map (Task.total count)).sum = countOf count fragments := by
  rw [sum_total_eq, (h.once.map _).sum_nat, List.map_map]
  rfl

/-- Where no copies are written, all counts are added up. -/
theorem totalCount_counts (tasks : List Task) (n : Task → Nat) :
    totalCount false tasks (tasks.map fun t => .count (n t)) = (tasks.map n).sum := by
  unfold totalCount
  generalize tasks.head? = first
  induction tasks with
  | nil => rfl
  | cons t tasks ih =>
    have hsum : ((t :: tasks).map n).sum = n t + (tasks.map n).sum := List.sum_cons
    rw [hsum, ← ih]
    rfl

/-! ### One by one -/

/-- The task of a fragment that is executed by itself. -/
def fragmentTask (f : Fragment) : Task where
  shard := f.shard
  work := .update f.sql f.params

/-- Executes fragments one after another and adds up the numbers of rows they changed. -/
def updateEach (e : Executor) (kind : StatementKind) : World → List Fragment →
    Except Cause Nat × World
  | w, [] => (.ok 0, w)
  | w, f :: rest =>
    match e.invoke w kind [fragmentTask f] with
    | (.error cause, w) => (.error cause, w)
    | (.ok outputs, w) =>
      match e.updateEach kind w rest with
      | (.error cause, w) => (.error cause, w)
      | (.ok n, w) => (.ok (totalCount false [fragmentTask f] outputs + n), w)

variable {e : Executor} {w w' w₁ : World} {s : Statement} {kind : StatementKind}

/-- Fragments that are executed one after another change as many rows as is counted for them. -/
theorem updateEach_eq (hcounts : w.CountsBy count) {n : Nat}
    (h : e.updateEach kind w fragments = (.ok n, w')) : n = countOf count fragments := by
  induction fragments generalizing w w' n with
  | nil =>
    obtain ⟨hn, -⟩ := Prod.mk.inj h
    exact (Except.ok.inj hn).symm
  | cons f rest ih =>
    rw [updateEach] at h
    split at h
    · cases h
    · next outputs w₁ hinvoke =>
      obtain ⟨rfl, hcounts₁⟩ := outputs_of_invoke hcounts
        (fun t ht => by rw [List.mem_singleton.1 ht]; exact ⟨rfl, rfl⟩) hinvoke
      split at h
      · cases h
      · next m w₂ hrest =>
        obtain ⟨hn, -⟩ := Prod.mk.inj h
        rw [← Except.ok.inj hn, ih hcounts₁ hrest, totalCount_counts]
        rfl

/-- The tasks of a plan without copies that all succeed change as many rows as is counted for its
fragments. -/
theorem update_of_allSucceed (hquery : s.kind.isQuery = false) (hplan : e.plan w s = (.ok p, w₁))
    (hcopies : p.broadcast = false) (hkind : p.kind = .insert ∨ p.kind = .merge)
    (hcounts : w₁.CountsBy count) (hall : e.AllSucceed w₁ s.kind (updateTasks p)) :
    ∃ w₂, e.update w s = (.ok (countOf count p.fragments), w₂) := by
  obtain ⟨outputs, w₂, hinvoke⟩ := exists_invoke hall
  obtain ⟨rfl, -⟩ := outputs_of_invoke hcounts (fun t ht => queued_of_mem_updateTasks hkind ht)
    hinvoke
  refine ⟨w₂, ?_⟩
  rw [update, hquery, if_neg Bool.false_ne_true, hplan]
  simp only [hinvoke]
  rw [hcopies, totalCount_counts, (batches_updateTasks hkind).sum_total]

/-- A statement that adds rows to a table that is not copied has a fragment for each row, which
carries the values of the row to the one target of the row. The fragments are executed by tasks that
group them by shard and text and write what they write once. If the databases count by shard, text
and values and all tasks succeed, the statement changes as many rows as its fragments do when they
are executed one by one. -/
theorem update_rows_of_plan (hkind : s.kind = .insert ∨ s.kind = .merge)
    (hcopied : ∀ t shards, e.catalog.find s.table = .ok t → t.placement ≠ .copied shards)
    (hplan : e.plan w s = (.ok p, w₁)) :
    (p.fragments.length = s.rows.length ∧
      ∀ i f, p.fragments[i]? = some f → Plan.AddsRow e.catalog s i f) ∧
    Batches p.fragments (updateTasks p) ∧
    ∀ count, w.CountsBy count → e.AllSucceed w₁ s.kind (updateTasks p) →
      ∃ n, (∃ w₂, e.update w s = (.ok n, w₂)) ∧
        n = (p.fragments.map fun f => count f.shard f.sql f.params).sum ∧
        ∀ m w₂, e.updateEach s.kind w₁ p.fragments = (.ok m, w₂) → m = n := by
  have hworld : w₁ = w.draw.2 := (congrArg Prod.snd hplan).symm
  have hofStatement : Plan.ofStatement e.catalog w.draw.1 s = .ok p := congrArg Prod.fst hplan
  obtain ⟨hpkind, hbroadcast, hlength, hrows⟩ :=
    Plan.addsRow_of_ofStatement hkind hcopied hofStatement
  have hpkind' : p.kind = .insert ∨ p.kind = .merge := by rwa [hpkind]
  have hquery : s.kind.isQuery = false := by
    rcases hkind with h | h <;> rw [h] <;> rfl
  refine ⟨⟨hlength, hrows⟩, batches_updateTasks hpkind', fun count hcounts hall => ?_⟩
  have hcounts₁ : w₁.CountsBy count := hworld ▸ hcounts.of_follows w.follows_draw
  refine ⟨countOf count p.fragments,
    update_of_allSucceed hquery hplan hbroadcast hpkind' hcounts₁ hall, rfl, fun m w₂ hm => ?_⟩
  exact updateEach_eq hcounts₁ hm

/-- A router with a shard for even and one for odd users. -/
def parityRouter : Router where
  id := "by-user"
  partition := [⟨"s0", ""⟩, ⟨"s1", ""⟩]
  rule := ⟨[{ name := "user_id" }], .algorithm KeyAlgorithm.remainder []⟩

/-- An executor for a table of this router. -/
def parityExecutor : Executor where
  catalog := { tables := [⟨"orders", .routed parityRouter⟩] }
  limit := 2
  session := {}

/-- A datasource that is the only one of its shard. -/
def loneDatasource (shard uid : String) : Datasource where
  settings := { uid }
  shard := shard
  member := { uid }
  idle := IdleQueue.empty 1

/-- The selector of a shard with a single datasource. -/
def loneSelector (shard uid : String) : Selector where
  shard := shard
  members := [{ uid }]
  topology := .standalone
  readKind := .random
  writeKind := .random
  replicas := 16
  abnormal := []
  readable := .random {}
  writable := .random {}

/-- A world with these two shards, the databases of which change one row with each write. -/
def parityWorld : World where
  repository :=
    { datasources := [loneDatasource "s0" "d0", loneDatasource "s1" "d1"]
      selectors := [loneSelector "s0" "d0", loneSelector "s1" "d1"] }

/-- A statement that adds four rows. -/
def parityInsert : Statement where
  kind := .insert
  table := "orders"
  columns := ["user_id", "note"]
  rows := [[.value (.int 2), .value (.text "a")], [.value (.int 3), .value (.text "b")],
    [.value (.int 4), .value .null], [.value (.int 6), .value (.text "c")]]

/-- The plan of this statement. -/
def parityPlan : Plan where
  kind := .insert
  fragments := [
    Plan.insertFragment parityInsert [.value (.int 2), .value (.text "a")] ⟨"s0", "orders", ""⟩,
    Plan.insertFragment parityInsert [.value (.int 3), .value (.text "b")] ⟨"s1", "orders", ""⟩,
    Plan.insertFragment parityInsert [.value (.int 4), .value .null] ⟨"s0", "orders", ""⟩,
    Plan.insertFragment parityInsert [.value (.int 6), .value (.text "c")] ⟨"s0", "orders", ""⟩]
  broadcast := false

/-- The four rows are written by three tasks, since the text of one says that its note is absent;
one by one they come to the same number. -/
theorem update_rows_of_plan_parity :
    (∀ i f, parityPlan.fragments[i]? = some f →
      Plan.AddsRow parityExecutor.catalog parityInsert i f) ∧
      Batches parityPlan.fragments (updateTasks parityPlan) ∧ (updateTasks parityPlan).length = 3 ∧
      (∃ w, parityExecutor.update parityWorld parityInsert = (.ok 4, w)) ∧
      ∃ w, parityExecutor.updateEach .insert parityWorld.draw.2 parityPlan.fragments =
        (.ok 4, w) := by
  have hplan : parityExecutor.plan parityWorld parityInsert =
      (.ok parityPlan, parityWorld.draw.2) := by rfl
  have hcopied : ∀ t shards, parityExecutor.catalog.find parityInsert.table = .ok t →
      t.placement ≠ .copied shards := by
    rintro t shards ⟨⟩
    exact nofun
  have hall : parityExecutor.AllSucceed parityWorld.draw.2 parityInsert.kind
      (updateTasks parityPlan) := by decide +kernel
  obtain ⟨⟨-, hrows⟩, hbatches, hcounts⟩ := update_rows_of_plan (Or.inl rfl) hcopied hplan
  obtain ⟨n, ⟨w, hupdate⟩, hn, heach⟩ := hcounts (fun _ _ _ => 1) (fun _ _ _ _ _ => rfl) hall
  obtain rfl : n = 4 := hn
  refine ⟨hrows, hbatches, by decide +kernel, ⟨w, hupdate⟩, ?_⟩
  obtain ⟨m, w₂, heach'⟩ : ∃ m w₂, parityExecutor.updateEach .insert parityWorld.draw.2
      parityPlan.fragments = (.ok m, w₂) := ⟨_, _, by rfl⟩
  obtain rfl := heach m w₂ heach'
  exact ⟨w₂, heach'⟩

end Executor

end ShardRouting
