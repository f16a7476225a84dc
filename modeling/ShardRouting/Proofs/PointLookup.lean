import Mathlib
import ShardRouting.Proofs.ScanRoute

/-!
# Looking up an added row

A row is added by all that it binds, and looked up by equalities for the columns of the rule. These
are two ways through the router, and they meet: the equalities name the one physical table where the
row was put, whatever else the conditions say about other columns or about ranges.

* `Rule.equalities`: the equalities for the rule columns of a row.
* `Catalog.pinAll_filter`: conditions that list nothing for a rule column do not count.
* `Catalog.routeConditions_of_routeRow`: equalities for the columns of an added row lead to its
  target alone.
-/

namespace ShardRouting

/-- Equalities that ask for what a row has in the columns of a rule, under their own names. -/
def Rule.equalities (r : Rule) (row : Row) : List Condition :=
  r.columns.map fun col => ⟨col.name, .equals (row.value col.name)⟩

/-- A column whose name stays as it is when it is compared once more is found under that name. -/
theorem Rule.isColumn_normalize {r : Rule} {col : RuleColumn} (hcol : col ∈ r.columns)
    (hstable : Identifier.normalize col.name = col.name) :
    r.isColumn (Identifier.normalize col.name) := by
  rw [isColumn_eq, hstable, hstable]
  exact declares_iff.2 ⟨col, hcol, rfl⟩

/-- A value of a row that is there is one that the row binds. -/
theorem Row.get?_of_isNull {row : Row} {n : String} (h : (row.value n).isNull = false) :
    row.get? n = some (row.value n) := by
  unfold Row.value at h ⊢
  cases hget : row.get? n with
  | none => rw [hget] at h; cases h
  | some v => rfl

namespace Catalog

variable {c : Catalog} {table : String} {t : Table} {r : Router} {row : Row}
  {conditions : List Condition}

/-- Conditions that list nothing for a rule column do not count. -/
theorem pinAll_filter (rule : Rule) (conditions : List Condition) :
    pinAll rule (conditions.filter fun cond => (listed? rule cond).isSome) =
      pinAll rule conditions := by
  rw [pinAll_eq, pinAll_eq, List.filterMap_filter]
  congr 1
  refine List.filterMap_congr fun cond _ => ?_
  cases listed? rule cond <;> rfl

/-- A range lists nothing, and neither does a condition on another column. -/
theorem listed?_eq_none {rule : Rule} {cond : Condition}
    (h : (∃ low high, cond.restriction = .between low high) ∨
      ¬ rule.isColumn (Identifier.normalize cond.column)) :
    listed? rule cond = none := by
  refine Option.eq_none_iff_forall_ne_some.2 fun e he => ?_
  obtain ⟨hcolumn, values, hvalues, -⟩ := listed?_eq_some_iff.1 he
  rcases h with ⟨low, high, hrange⟩ | hother
  · rw [hrange] at hvalues
    cases hvalues
  · exact hother hcolumn

/-- Conditions that are the equalities for a row, in any order and any number, lead where the row
goes, if the rule needs all its columns, reads no others, and its columns keep their names when
these are compared once more. -/
theorem routeAll_of_equalities (hrequired : ∀ col ∈ r.rule.columns, col.required)
    (hstable : ∀ col ∈ r.rule.columns, Identifier.normalize col.name = col.name)
    (hreads : r.rule.undeclared = [])
    (hmem : ∀ cond, cond ∈ conditions ↔ cond ∈ r.rule.equalities row)
    {ps : List Nat} (hps : r.positions table row = .ok ps) :
    (∀ col ∈ r.rule.requiredColumns, col.name ∈ (pinAll r.rule conditions).map Prod.fst) ∧
      r.routeAll table (pinAll r.rule conditions) = .ok (r.targetsAt table ps.contains) := by
  have hpresent : ∀ col ∈ r.rule.columns, (row.value col.name).isNull = false := fun col hcol =>
    Router.required_of_positions hps col (List.mem_filter.2 ⟨hcol, hrequired col hcol⟩)
  have hequality : ∀ cond ∈ conditions,
      ∃ col ∈ r.rule.columns, cond = ⟨col.name, .equals (row.value col.name)⟩ := by
    intro cond hcond
    obtain ⟨col, hcol, rfl⟩ := List.mem_map.1 ((hmem cond).1 hcond)
    exact ⟨col, hcol, rfl⟩
  have hpins : ∀ cond ∈ conditions, cond.Pins row := by
    intro cond hcond
    obtain ⟨col, hcol, rfl⟩ := hequality cond hcond
    refine ⟨_, rfl, hpresent col hcol, ?_⟩
    rw [hstable col hcol]
    exact Row.get?_of_isNull (hpresent col hcol)
  have hnamed : Router.named (pinAll r.rule conditions) = pinAll r.rule conditions := by
    refine named_pinAll fun cond hcond _ => ?_
    obtain ⟨col, hcol, rfl⟩ := hequality cond hcond
    rw [hstable col hcol]
    exact hstable col hcol
  have hpinned : ∀ col ∈ r.rule.columns,
      col.name ∈ (pinAll r.rule conditions).map Prod.fst := by
    intro col hcol
    exact mem_map_fst_pinAll_iff.2 ⟨⟨col.name, .equals (row.value col.name)⟩,
      (hmem _).2 (List.mem_map_of_mem hcol), Rule.isColumn_normalize hcol (hstable col hcol), rfl,
      hstable col hcol⟩
  have hneeded : ∀ col ∈ r.rule.requiredColumns,
      col.name ∈ (pinAll r.rule conditions).map Prod.fst :=
    fun col hcol => hpinned col (List.mem_filter.1 hcol).1
  refine ⟨hneeded, routeAll_of_candidateRows hpins hnamed hneeded fun row' hrow' => ?_⟩
  -- a candidate row agrees with the row on all columns of the rule, and no others are read
  have hvalue : ∀ col ∈ r.rule.columns, row'.value col.name = row.value col.name := by
    intro col hcol
    rw [Row.value, Row.value, get?_of_mem_candidateRows hpins hnamed hrow',
      if_pos (hpinned col hcol)]
  rw [← hps]
  refine Router.positions_congr (fun n hn => ?_)
    (fun col hcol => hvalue col (List.mem_filter.1 hcol).1) table
  obtain ⟨col, hcol, rfl⟩ : ∃ col ∈ r.rule.columns, col.name = n := by
    refine Rule.declares_iff.1 ?_
    by_contra hn'
    have hnone := Rule.mem_undeclared_iff.2 ⟨hn, hn'⟩
    rw [hreads] at hnone
    cases hnone
  exact hvalue col hcol

/-! ### Lookups -/

/-- Equalities for the columns of a rule, in any order, with ranges and conditions on other columns
among them, lead to the one target of a row with these values, if the rule needs all its columns,
reads no others, and its columns keep their names when these are compared once more. -/
theorem routeConditions_of_routeRow (hfind : c.find table = .ok t)
    (hrouted : t.placement = .routed r) (hrequired : ∀ col ∈ r.rule.columns, col.required)
    (hstable : ∀ col ∈ r.rule.columns, Identifier.normalize col.name = col.name)
    (hreads : r.rule.undeclared = []) {s : Statement} {i : Nat} {route : Route} {target : Target}
    (hrow : c.routeRow table (s.rowValues i) = .ok route) (htarget : target ∈ route.targets)
    (hequalities : ∀ cond ∈ r.rule.equalities (s.rowValues i), cond ∈ conditions)
    (hothers : ∀ cond ∈ conditions, cond ∈ r.rule.equalities (s.rowValues i) ∨
      (∃ low high, cond.restriction = .between low high) ∨
      ¬ r.rule.isColumn (Identifier.normalize cond.column)) :
    c.routeConditions table conditions = .ok { targets := [target] } := by
  rw [routeRow_routed hfind hrouted] at hrow
  obtain ⟨targets, htargets, hone⟩ := bind_eq_ok_iff.1 hrow
  obtain ⟨ps, hps, htargets⟩ := bind_eq_ok_iff.1 htargets
  split at hone
  on_goal 2 => cases hone
  next hlength =>
  cases htargets
  cases hone
  obtain ⟨only, honly⟩ := List.length_eq_one_iff.1 hlength
  rw [honly, List.mem_singleton] at htarget
  subst htarget
  -- of the conditions the equalities list something, and nothing else does
  have hlisted : ∀ cond ∈ r.rule.equalities (s.rowValues i), (listed? r.rule cond).isSome := by
    intro cond hcond
    obtain ⟨col, hcol, rfl⟩ := List.mem_map.1 hcond
    exact Option.isSome_iff_exists.2 ⟨_, listed?_eq_some_iff.2
      ⟨Rule.isColumn_normalize hcol (hstable col hcol), _, rfl, rfl⟩⟩
  have hmem : ∀ cond, (cond ∈ conditions.filter fun cond => (listed? r.rule cond).isSome) ↔
      cond ∈ r.rule.equalities (s.rowValues i) := by
    intro cond
    rw [List.mem_filter]
    constructor
    · rintro ⟨hcond, hsome⟩
      rcases hothers cond hcond with h | h
      · exact h
      · rw [listed?_eq_none h] at hsome
        cases hsome
    · exact fun h => ⟨hequalities cond h, hlisted cond h⟩
  obtain ⟨hneeded, hroute⟩ := routeAll_of_equalities hrequired hstable hreads hmem hps
  rw [pinAll_filter] at hneeded hroute
  rw [routeConditions_routed hfind hrouted, if_pos hneeded, hroute, honly]
  rfl

/-- Settings with a rule that lists one of its columns twice. -/
def pairSettings : Settings where
  shards := [{ name := "s0" }, { name := "s1" }, { name := "s2" }]
  routers := [{ id := "by-pair"
                partition := [{ shard := "s0" }, { shard := "s1" }, { shard := "s2" }]
                rule :=
                  { columns := [{ name := "user_id" }, { name := "region" }, { name := "user_id" }]
                    algorithm := some "mod" } }]
  tables := [{ name := "orders", router := some "by-pair" }]

/-- The router of these settings. -/
def pairRouter : Router where
  id := "by-pair"
  partition := [⟨"s0", ""⟩, ⟨"s1", ""⟩, ⟨"s2", ""⟩]
  rule := ⟨[{ name := "user_id" }, { name := "region" }, { name := "user_id" }],
    .algorithm KeyAlgorithm.remainder []⟩

/-- The catalog of these settings. -/
def pairCatalog : Catalog where
  tables := [⟨"orders", .routed pairRouter⟩]

/-- A statement that adds two rows. -/
def pairStatement : Statement where
  kind := .insert
  table := "orders"
  columns := ["id", "USER_ID", "region"]
  rows := [[.value (.int 1), .value (.int 3), .value (.text "eu")],
    [.value (.int 2), .value (.int 7), .value (.text "us")]]

/-- The second row is looked up by its values, in another order and between other conditions. -/
theorem routeConditions_of_routeRow_pair : build Registry.builtin pairSettings = .ok pairCatalog ∧
    pairCatalog.routeConditions "orders"
        [⟨"user_id", .between none (some (.int 3))⟩, ⟨"region", .equals (.text "us")⟩,
          ⟨"id", .oneOf [.int 8, .int 9]⟩, ⟨"user_id", .equals (.int 7)⟩] =
      .ok { targets := [⟨"s1", "orders", ""⟩] } := by
  have hrow : pairCatalog.routeRow "orders" (pairStatement.rowValues 1) =
      .ok { targets := [⟨"s1", "orders", ""⟩] } := by decide +kernel
  have hequalities : pairRouter.rule.equalities (pairStatement.rowValues 1) =
      [⟨"user_id", .equals (.int 7)⟩, ⟨"region", .equals (.text "us")⟩,
        ⟨"user_id", .equals (.int 7)⟩] := by cbv
  refine ⟨by cbv, ?_⟩
  refine routeConditions_of_routeRow rfl rfl (by decide +kernel) (by decide +kernel)
    (Rule.undeclared_of_algorithm rfl) hrow (List.mem_singleton_self _) ?_ ?_
  · intro cond hcond
    rw [hequalities] at hcond
    simp only [List.mem_cons, List.not_mem_nil, or_false] at hcond ⊢
    rcases hcond with rfl | rfl | rfl <;> simp
  · intro cond hcond
    rw [hequalities]
    simp only [List.mem_cons, List.not_mem_nil, or_false] at hcond
    rcases hcond with rfl | rfl | rfl | rfl
    · exact Or.inr (Or.inl ⟨_, _, rfl⟩)
    · exact Or.inl (by simp)
    · exact Or.inr (Or.inr (by decide +kernel))
    · exact Or.inl (by simp)

end Catalog

end ShardRouting
