import Mathlib.Data.List.Forall2
import ShardRouting.Plan
import ShardRouting.Proofs.Outcome

/-!
# What plans are made of

A statement has a plan if its cells are in order and everything in it that needs a target has one.
Here this is said once for each kind of statement, so that nothing else has to look into planning.

* `Cell.Written` and `BoundValues`: how cells are written, and which values they bind.
* `Plan.ofStatement_eq_ok_iff`: naming the statement in failures changes no plan.
* `Plan.routed_rows_iff`, `Plan.routed_update_iff`, `Plan.routed_delete_iff`,
  `Plan.routed_select_iff`: when statements of a kind have a plan, and which.
* `Plan.rowFragments_eq_ok_iff`: added rows are routed each by itself.
-/

namespace ShardRouting

/-! ### Cells -/

/-- How a cell is written: a value that is bound as a question mark, the others by their names. -/
inductive Cell.Written : Cell → String → Prop where
  /-- The default of the column. -/
  | useDefault : Written .useDefault "DEFAULT"
  /-- The absent value. -/
  | null : Written (.value .null) "NULL"
  /-- Any other value. -/
  | bound {v : Value} (present : v ≠ .null) : Written (.value v) "?"

/-- The values that cells bind, in the order of the cells: each of its own, unless it is the absent
value or the default of the column. -/
inductive BoundValues : List Cell → List Value → Prop where
  /-- Where there are no cells. -/
  | nil : BoundValues [] []
  /-- The default of a column, in front of other cells. -/
  | useDefault {cells : List Cell} {values : List Value} (others : BoundValues cells values) :
      BoundValues (.useDefault :: cells) values
  /-- The absent value, in front of other cells. -/
  | null {cells : List Cell} {values : List Value} (others : BoundValues cells values) :
      BoundValues (.value .null :: cells) values
  /-- Any other value, in front of other cells. -/
  | bound {v : Value} {cells : List Cell} {values : List Value} (present : v ≠ .null)
      (others : BoundValues cells values) : BoundValues (.value v :: cells) (v :: values)

/-- The text of a cell is how it is written, and it is written in no other way. -/
theorem Cell.written_iff {cell : Cell} {text : String} :
    cell.Written text ↔ text = Plan.cellText cell := by
  constructor
  · intro h
    induction h with
    | useDefault => rfl
    | null => rfl
    | bound present => rw [Plan.cellText]; exact present
  · rintro rfl
    match cell with
    | .useDefault => exact .useDefault
    | .value v =>
      by_cases hnull : v = .null
      · rw [hnull]
        exact .null
      · rw [Plan.cellText]
        · exact .bound hnull
        · exact hnull

/-- Cells are written one by one. -/
theorem forall₂_written {cells : List Cell} :
    List.Forall₂ Cell.Written cells (cells.map Plan.cellText) :=
  List.forall₂_map_right_iff.2 (List.forall₂_same.2 fun _ _ => Cell.written_iff.2 rfl)

/-- The value of a cell is what it binds. -/
theorem boundValues_filterMap (cells : List Cell) :
    BoundValues cells (cells.filterMap Plan.cellParam?) := by
  induction cells with
  | nil => exact .nil
  | cons cell cells ih =>
    match cell with
    | .useDefault => exact .useDefault ih
    | .value v =>
      by_cases hnull : v = .null
      · rw [hnull]
        exact .null ih
      · have hsome : Plan.cellParam? (.value v) = some v := by
          rw [Plan.cellParam?]
          exact hnull
        rw [List.filterMap_cons_some hsome]
        exact .bound hnull ih

namespace Plan

variable {c : Catalog} {draw : Nat} {s : Statement} {p : Plan}

/-- A statement has the plan that its routing gives. -/
theorem ofStatement_eq_ok_iff : ofStatement c draw s = .ok p ↔ routed c draw s = .ok p := by
  unfold ofStatement
  cases routed c draw s with
  | error fault => exact ⟨nofun, nofun⟩
  | ok plan => exact ⟨fun h => by cases h; rfl, fun h => by cases h; rfl⟩

/-- Each row that is added has a route, and the fragments are those for the targets of the rows, row
by row. -/
theorem rowFragments_eq_ok_iff {rows : List (List Cell)} {fragments : List Fragment}
    {broadcast : Bool} :
    rowFragments c s rows = .ok (fragments, broadcast) ↔ ∃ routes : List Route,
      List.Forall₂ (fun cells route =>
        c.routeRow s.table (Statement.bindCells s.columns cells) = .ok route) rows routes ∧
      fragments = (List.zipWith (fun cells (route : Route) =>
        route.targets.map (insertFragment s cells)) rows routes).flatten ∧
      broadcast = routes.any Route.broadcast := by
  induction rows generalizing fragments broadcast with
  | nil =>
    rw [rowFragments]
    constructor
    · intro h
      cases h
      exact ⟨[], .nil, rfl, rfl⟩
    · rintro ⟨routes, hroutes, rfl, rfl⟩
      cases hroutes
      rfl
  | cons cells rows ih =>
    rw [rowFragments]
    constructor
    · intro h
      obtain ⟨route, hroute, h⟩ := bind_eq_ok_iff.1 h
      obtain ⟨⟨more, rest⟩, hmore, h⟩ := bind_eq_ok_iff.1 h
      cases h
      obtain ⟨routes, hroutes, rfl, rfl⟩ := ih.1 hmore
      exact ⟨route :: routes, .cons hroute hroutes, rfl, rfl⟩
    · rintro ⟨routes, hroutes, rfl, rfl⟩
      cases hroutes with
      | cons hroute hroutes =>
        rw [hroute]
        show (rowFragments c s rows >>= _) = _
        rw [ih.2 ⟨_, hroutes, rfl, rfl⟩]
        rfl

/-- A statement that adds rows has a plan if its cells are in order and each row has a route. -/
theorem routed_rows_iff (hkind : s.kind = .insert ∨ s.kind = .merge) :
    routed c draw s = .ok p ↔ checkCells s = .ok () ∧ p.kind = s.kind ∧
      rowFragments c s s.rows = .ok (p.fragments, p.broadcast) := by
  have hrouted : routed c draw s = checkCells s >>= fun _ =>
      rowFragments c s s.rows >>= fun r => .ok ⟨s.kind, r.1, r.2⟩ := by
    unfold routed
    rcases hkind with h | h <;> rw [h]
  rw [hrouted, bind_eq_ok_iff]
  constructor
  · rintro ⟨⟨⟩, hcells, h⟩
    obtain ⟨⟨fragments, broadcast⟩, hrows, h⟩ := bind_eq_ok_iff.1 h
    cases h
    exact ⟨hcells, rfl, hrows⟩
  · rintro ⟨hcells, hk, hrows⟩
    refine ⟨(), hcells, bind_eq_ok_iff.2 ⟨_, hrows, ?_⟩⟩
    rw [← hk]

/-- A statement that changes rows has a plan if its cells are in order, it assigns no column that
decides where a row lives, and its conditions have a route. -/
theorem routed_update_iff (hkind : s.kind = .update) :
    routed c draw s = .ok p ↔ checkCells s = .ok () ∧
      c.checkAssigned s.table s.columns = .ok () ∧
      ∃ route, c.routeConditions s.table s.conditions = .ok route ∧
        p = ⟨.update, route.targets.map (updateFragment s), route.broadcast⟩ := by
  have hrouted : routed c draw s = checkCells s >>= fun _ =>
      c.checkAssigned s.table s.columns >>= fun _ =>
        c.routeConditions s.table s.conditions >>= fun route =>
          .ok ⟨.update, route.targets.map (updateFragment s), route.broadcast⟩ := by
    unfold routed
    rw [hkind]
  rw [hrouted, bind_eq_ok_iff]
  constructor
  · rintro ⟨⟨⟩, hcells, h⟩
    obtain ⟨⟨⟩, hassigned, h⟩ := bind_eq_ok_iff.1 h
    obtain ⟨route, hroute, h⟩ := bind_eq_ok_iff.1 h
    cases h
    exact ⟨hcells, hassigned, route, hroute, rfl⟩
  · rintro ⟨hcells, hassigned, route, hroute, rfl⟩
    exact ⟨(), hcells, bind_eq_ok_iff.2 ⟨(), hassigned, bind_eq_ok_iff.2 ⟨route, hroute, rfl⟩⟩⟩

/-- A statement that removes rows has a plan if its conditions have a route. -/
theorem routed_delete_iff (hkind : s.kind = .delete) :
    routed c draw s = .ok p ↔ ∃ route, c.routeConditions s.table s.conditions = .ok route ∧
      p = ⟨.delete, route.targets.map (deleteFragment s), route.broadcast⟩ := by
  have hcells : checkCells s = .ok () := by rw [checkCells, if_pos (Or.inr hkind)]
  have hrouted : routed c draw s = checkCells s >>= fun _ =>
      c.routeConditions s.table s.conditions >>= fun route =>
        .ok ⟨.delete, route.targets.map (deleteFragment s), route.broadcast⟩ := by
    unfold routed
    rw [hkind]
  rw [hrouted, bind_eq_ok_iff]
  constructor
  · rintro ⟨⟨⟩, -, h⟩
    obtain ⟨route, hroute, h⟩ := bind_eq_ok_iff.1 h
    cases h
    exact ⟨route, hroute, rfl⟩
  · rintro ⟨route, hroute, rfl⟩
    exact ⟨(), hcells, bind_eq_ok_iff.2 ⟨route, hroute, rfl⟩⟩

/-- A statement that reads has a plan if its conditions have a route. -/
theorem routed_select_iff (hkind : s.kind = .select) :
    routed c draw s = .ok p ↔ ∃ route, c.routeConditions s.table s.conditions = .ok route ∧
      p = ⟨.select, (readRoute draw route).byShard.map fun (shard, targets) =>
        selectFragment s shard targets, false⟩ := by
  have hcells : checkCells s = .ok () := by rw [checkCells, if_pos (Or.inl hkind)]
  have hrouted : routed c draw s = checkCells s >>= fun _ =>
      c.routeConditions s.table s.conditions >>= fun route =>
        .ok ⟨.select, (readRoute draw route).byShard.map fun (shard, targets) =>
          selectFragment s shard targets, false⟩ := by
    unfold routed
    rw [hkind]
  rw [hrouted, bind_eq_ok_iff]
  constructor
  · rintro ⟨⟨⟩, -, h⟩
    obtain ⟨route, hroute, h⟩ := bind_eq_ok_iff.1 h
    cases h
    exact ⟨route, hroute, rfl⟩
  · rintro ⟨route, hroute, rfl⟩
    exact ⟨(), hcells, bind_eq_ok_iff.2 ⟨route, hroute, rfl⟩⟩

/-- Cells that are in order are as many as the columns in every row that is written. -/
theorem length_of_checkCells (hkind : s.kind ≠ .select ∧ s.kind ≠ .delete)
    (h : checkCells s = .ok ()) : ∀ cells ∈ s.rows, cells.length = s.columns.length := by
  rw [checkCells, if_neg (not_or.2 hkind)] at h
  split at h
  · cases h
  · split at h
    · cases h
    · next hnone =>
      intro cells hcells
      simpa using List.find?_eq_none.1 hnone cells hcells

/-- Of a route only targets of that route are read. -/
theorem subset_of_readRoute {draw : Nat} {route : Route} :
    (readRoute draw route).targets ⊆ route.targets := by
  unfold readRoute
  split
  · split
    · next t ht =>
      intro u hu
      obtain rfl := List.mem_singleton.1 hu
      exact List.mem_of_getElem? ht
    · exact List.Subset.refl _
  · exact List.Subset.refl _

end Plan

end ShardRouting
