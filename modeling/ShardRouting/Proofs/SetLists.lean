import Mathlib
import ShardRouting.Proofs.PhysicalTables

/-!
# Assignments of updates

The text of an update assigns a cell to each column that the statement names. The cells stand in
the first row of the statement, and rows with too few or too many cells are refused, so nothing can
be left out of the list, unless there is no row at all: this the check of rows lets through, and
the list is then empty.

* `SetList`: complete lists of assignments, one for each column.
* `Fragment.Assigns`: a fragment changes its table by the complete list of the statement.
* `Plan.assigns_of_update`: the fragments of an update do so exactly where it has a row.
* `Plan.not_assigns_of_update`: an update without rows is accepted and assigns nothing.
-/

namespace ShardRouting

/-! ### Complete lists -/

/-- Complete lists of assignments: one for each column, in order, of the cell in the same place. -/
inductive SetList : List String → List Cell → String → Prop where
  /-- A single assignment. -/
  | last {column text : String} {cell : Cell} (written : cell.Written text) :
      SetList [column] [cell] (column ++ " = " ++ text)
  /-- An assignment in front of others. -/
  | more {column text rest : String} {columns : List String} {cell : Cell} {cells : List Cell}
      (written : cell.Written text) (others : SetList columns cells rest) :
      SetList (column :: columns) (cell :: cells) (column ++ " = " ++ text ++ ", " ++ rest)

/-- The assignment of a cell to a column, as updates write it. -/
def assignmentText (entry : String × Cell) : String :=
  entry.1 ++ " = " ++ Plan.cellText entry.2

/-- The complete list of columns and as many cells, with commas between the assignments. -/
theorem setList_intercalate {columns : List String} {cells : List Cell} (hne : columns ≠ [])
    (hlength : cells.length = columns.length) :
    SetList columns cells (", ".intercalate ((columns.zip cells).map assignmentText)) := by
  induction columns generalizing cells with
  | nil => exact absurd rfl hne
  | cons column columns ih =>
    obtain ⟨cell, cells, rfl⟩ := List.exists_cons_of_length_eq_add_one hlength
    have hrest : cells.length = columns.length := Nat.succ.inj hlength
    have hwritten : cell.Written (Plan.cellText cell) := Cell.written_iff.2 rfl
    cases columns with
    | nil =>
      obtain rfl := List.length_eq_zero_iff.1 hrest
      simpa [assignmentText] using SetList.last hwritten
    | cons next columns =>
      obtain ⟨nextCell, cells, rfl⟩ := List.exists_cons_of_length_eq_add_one hrest
      have hmore : SetList (column :: next :: columns) (cell :: nextCell :: cells) _ :=
        .more hwritten (ih (by simp) hrest)
      simpa [assignmentText, String.intercalate_cons_cons] using hmore

/-- A complete list says something. -/
theorem SetList.ne_empty {columns : List String} {cells : List Cell} {list : String}
    (h : SetList columns cells list) : list ≠ "" := by
  intro hempty
  cases h <;> simp [String.append_eq_empty_iff] at hempty

/-! ### Updates -/

/-- A fragment changes a physical table by a list of assignments that binds the values of cells,
with the clauses of its statement behind the list. -/
structure Fragment.Assigns (f : Fragment) (s : Statement) (t : Target) (list : String)
    (cells : List Cell) : Prop where
  /-- The fragment is sent to the shard of the table. -/
  shard : f.shard = t.shard
  /-- The table is the only one that it changes. -/
  targets : f.targets = [t]
  /-- The list stands between the name of the table and the clauses. -/
  text : f.sql = "UPDATE " ++ Plan.tableText s t ++ " SET " ++ list ++ Plan.whereText s ++
    Plan.limitText s
  /-- The values of the cells are bound before those of the clauses. -/
  values : f.params = cells.filterMap Plan.cellParam? ++ s.clauseParams

namespace Plan

variable {c : Catalog} {draw : Nat} {s : Statement} {p : Plan} {t : Target}

/-- An update whose cells are in order names a column. -/
theorem columns_ne_nil_of_checkCells (hkind : s.kind = .update) (h : checkCells s = .ok ()) :
    s.columns ≠ [] := by
  intro hnil
  rw [checkCells, if_neg (by simp [hkind]), if_pos (by simp [hnil])] at h
  cases h

/-- The fragment of a table assigns what the first row of the statement says, and nothing where
there is no row. -/
theorem assigns_updateFragment (s : Statement) (t : Target) :
    (updateFragment s t).Assigns s t (", ".intercalate ((assignments s).map assignmentText))
      ((assignments s).map Prod.snd) := by
  refine ⟨rfl, rfl, rfl, ?_⟩
  rw [List.filterMap_map]
  rfl

/-- Where there is a row, its cells are all assigned. -/
theorem map_snd_assignments {cells : List Cell} {more : List (List Cell)}
    (hrows : s.rows = cells :: more) (hlength : cells.length = s.columns.length) :
    (assignments s).map Prod.snd = cells := by
  rw [assignments, hrows, List.headD_cons]
  exact List.map_snd_zip hlength.le

/-- Each fragment of an update changes one physical table. If the statement has a row, it does so by
the complete list of assignments of the first row to the columns; if it has none, by the empty
list. -/
theorem assigns_of_update (hkind : s.kind = .update) (hplan : ofStatement c draw s = .ok p) :
    ∀ f ∈ p.fragments, ∃ t,
      (∀ cells more, s.rows = cells :: more →
        ∃ list, SetList s.columns cells list ∧ list ≠ "" ∧ f.Assigns s t list cells) ∧
      (s.rows = [] → f.Assigns s t "" []) := by
  obtain ⟨hcheck, -, route, -, rfl⟩ := (routed_update_iff hkind).1 (ofStatement_eq_ok_iff.1 hplan)
  intro f hf
  obtain ⟨t, -, rfl⟩ := List.mem_map.1 hf
  have hassigns := assigns_updateFragment s t
  refine ⟨t, ?_, ?_⟩
  · intro cells more hrows
    have hlength : cells.length = s.columns.length := by
      apply length_of_checkCells (by simp [hkind]) hcheck
      rw [hrows]
      exact List.mem_cons_self
    have hlist : SetList s.columns cells (", ".intercalate ((assignments s).map assignmentText)) := by
      rw [assignments, hrows, List.headD_cons]
      exact setList_intercalate (columns_ne_nil_of_checkCells hkind hcheck) hlength
    rw [map_snd_assignments hrows hlength] at hassigns
    exact ⟨_, hlist, hlist.ne_empty, hassigns⟩
  · intro hrows
    have hnone : assignments s = [] := by
      rw [assignments, hrows, List.headD_nil, List.zip_nil_right]
    rw [hnone] at hassigns
    exact hassigns

/-- An update of three columns with a cell of each sort. -/
def stockUpdate : Statement where
  kind := .update
  table := "orders"
  columns := ["note", "rank", "qty"]
  rows := [[.value .null, .useDefault, .value (.int 5)]]
  condition := some ⟨"id = ?", [.int 7]⟩

/-- All three tables are changed by the same complete list. -/
theorem assigns_of_update_stock :
    ∃ p, ofStatement Catalog.regionCatalog 0 stockUpdate = .ok p ∧ p.fragments.length = 3 ∧
      stockUpdate.kind = .update ∧
      ∀ f ∈ p.fragments, ∃ t list,
        SetList ["note", "rank", "qty"] [.value .null, .useDefault, .value (.int 5)] list ∧
          f.Assigns stockUpdate t list [.value .null, .useDefault, .value (.int 5)] := by
  have hroute : Catalog.regionCatalog.routeConditions "orders" [] =
      .ok { targets := [⟨"s0", "orders", "_0"⟩, ⟨"s0", "orders", "_1"⟩, ⟨"s1", "orders", ""⟩]
            fullScan := true } := by rfl
  have hplan : ofStatement Catalog.regionCatalog 0 stockUpdate = .ok _ :=
    ofStatement_eq_ok_iff.2
      ((routed_update_iff rfl).2 ⟨by decide, by decide +kernel, _, hroute, rfl⟩)
  refine ⟨_, hplan, rfl, rfl, ?_⟩
  intro f hf
  obtain ⟨t, hrow, -⟩ := assigns_of_update rfl hplan f hf
  obtain ⟨list, hlist, -, hassigns⟩ := hrow _ _ rfl
  exact ⟨t, list, hlist, hassigns⟩

/-- An update that names a column and has no row. -/
def rowlessUpdate : Statement where
  kind := .update
  table := "regions"
  columns := ["note"]
  condition := some ⟨"id = ?", [.int 7]⟩

/-- An update without rows is accepted, and nothing stands between `SET` and its condition. -/
theorem not_assigns_of_update :
    (¬ ∀ (settings : Settings) (c : Catalog) (draw : Nat) (s : Statement) (p : Plan),
      Catalog.build Registry.builtin settings = .ok c → s.kind = .update →
        ofStatement c draw s = .ok p →
          ∀ f ∈ p.fragments, ∃ t cells list, s.rows.head? = some cells ∧
            SetList s.columns cells list ∧ f.Assigns s t list cells) ∧
    ∃ p, ofStatement Catalog.regionCatalog 0 rowlessUpdate = .ok p ∧
      p.fragments.map Fragment.sql =
        ["UPDATE regions SET  WHERE id = ?", "UPDATE regions SET  WHERE id = ?"] := by
  have hbuild : Catalog.build Registry.builtin Catalog.regionSettings =
      .ok Catalog.regionCatalog := by rfl
  have hroute : Catalog.regionCatalog.routeConditions "regions" [] =
      .ok { targets := [⟨"s0", "regions", ""⟩, ⟨"s1", "regions", ""⟩], broadcast := true } := rfl
  have hplan : ofStatement Catalog.regionCatalog 0 rowlessUpdate = .ok _ :=
    ofStatement_eq_ok_iff.2
      ((routed_update_iff rfl).2 ⟨by decide, by decide +kernel, _, hroute, rfl⟩)
  refine ⟨?_, _, hplan, by decide +kernel⟩
  intro h
  obtain ⟨t, cells, list, hrow, -⟩ := h _ _ _ _ _ hbuild rfl hplan _ List.mem_cons_self
  simp [rowlessUpdate] at hrow

end Plan

end ShardRouting
