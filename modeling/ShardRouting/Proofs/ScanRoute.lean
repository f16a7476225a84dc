import Mathlib
import ShardRouting.Proofs.Accepted
import ShardRouting.Proofs.Candidates

/-!
# Conditions and the places of rows

A row is routed by all that it binds, and the rows that meet conditions are routed by what the
conditions list. Here the second is held against the first. Routing by conditions needs values for
the required columns only; a column that may be absent, and that a row does bind, can then be
missing from the candidates, and the row is looked for elsewhere.

* `Catalog.targets_subset_of_pins`: the rows that equalities pin down are found where they are
  stored, if the columns that decide their place are required or pinned.
* `Catalog.not_targets_subset_of_pins`: without that a row can be missed.
* `Catalog.routeConditions_of_free`: where no condition lists values for a rule column, all physical
  tables are taken, unless no column is required.
* `Catalog.not_routeConditions_of_free`: a rule without required columns then may have no key.
-/

namespace ShardRouting

/-- A condition that asks for exactly the value that a row has in its column. -/
def Condition.Pins (cond : Condition) (row : Row) : Prop :=
  ∃ v, cond.restriction = .equals v ∧ v.isNull = false ∧
    row.get? (Identifier.normalize cond.column) = some v

namespace Catalog

variable {c : Catalog} {table : String} {t : Table} {r : Router} {row row' : Row}
  {conditions : List Condition}

/-! ### Candidates that a row pins down -/

/-- Where a row pins all conditions down, the one candidate of a column is what the row binds. -/
theorem mem_iff_of_mem_pinAll (hpins : ∀ cond ∈ conditions, cond.Pins row) {rule : Rule}
    {n : String} {vs : List Value} (h : (n, vs) ∈ pinAll rule conditions) {v : Value} :
    v ∈ vs ↔ row.get? n = some v ∧ v.isNull = false := by
  rw [pinAll_eq] at h
  obtain ⟨first, hfirst, hname, hvs⟩ := exists_first_of_mem_pinEntries h
  -- everything that is listed for the column is the one value of the row
  have hlisted : ∀ e ∈ conditions.filterMap (listed? rule), e.1 = n →
      ∃ w, e.2 = [w] ∧ w.isNull = false ∧ row.get? n = some w := by
    intro e he hn
    obtain ⟨cond, hcond, he⟩ := List.mem_filterMap.1 he
    obtain ⟨w, hequals, hnull, hrow⟩ := hpins cond hcond
    obtain ⟨-, values, hvalues, rfl⟩ := listed?_eq_some_iff.1 he
    rw [hequals] at hvalues
    cases hvalues
    refine ⟨w, ?_, hnull, hn ▸ hrow⟩
    simp [hnull]
  obtain ⟨w, hw, hnull, hrow⟩ := hlisted first hfirst hname
  rw [hvs, hw, List.mem_singleton]
  constructor
  · rintro ⟨hv, -⟩
    exact hv ▸ ⟨hrow, hnull⟩
  · rintro ⟨hv, -⟩
    rw [hrow] at hv
    cases hv
    refine ⟨rfl, fun e he hn => ?_⟩
    obtain ⟨w', hw', -, hrow'⟩ := hlisted e he hn
    rw [hrow] at hrow'
    cases hrow'
    exact ⟨v, hw' ▸ List.mem_singleton_self _, Value.sameKey_self v⟩

/-- A column with candidates has a value on a row that pins all conditions down. -/
theorem exists_get?_of_mem_pinAll (hpins : ∀ cond ∈ conditions, cond.Pins row) {rule : Rule}
    {n : String} (h : n ∈ (pinAll rule conditions).map Prod.fst) :
    ∃ v, row.get? n = some v ∧ v.isNull = false := by
  obtain ⟨cond, hcond, -, -, rfl⟩ := mem_map_fst_pinAll_iff.1 h
  obtain ⟨v, -, hnull, hrow⟩ := hpins cond hcond
  exact ⟨v, hrow, hnull⟩

/-- The names of candidates stay as they are when they are compared once more, if the names in the
conditions do. -/
theorem named_pinAll {rule : Rule}
    (hstable : ∀ cond ∈ conditions, rule.isColumn (Identifier.normalize cond.column) →
      Identifier.normalize (Identifier.normalize cond.column) = Identifier.normalize cond.column) :
    Router.named (pinAll rule conditions) = pinAll rule conditions := by
  refine Router.named_eq_iff.2 fun n hn => ?_
  obtain ⟨cond, hcond, hcolumn, -, rfl⟩ := mem_map_fst_pinAll_iff.1 hn
  exact hstable cond hcond hcolumn

/-- A candidate row binds a column with candidates as the row does that pins the conditions down,
and nothing else. -/
theorem get?_of_mem_candidateRows (hpins : ∀ cond ∈ conditions, cond.Pins row) {rule : Rule}
    (hnamed : Router.named (pinAll rule conditions) = pinAll rule conditions)
    (h : row' ∈ Router.candidateRows (pinAll rule conditions)) (n : String) :
    row'.get? n = if n ∈ (pinAll rule conditions).map Prod.fst then row.get? n else none := by
  have hsome := Router.isSome_get?_iff_of_mem_candidateRows h (n := n)
  rw [hnamed] at hsome
  split
  · next hn =>
    obtain ⟨v, hv⟩ := Option.isSome_iff_exists.1 (hsome.2 hn)
    obtain ⟨vs, hvs, hmem⟩ := Router.exists_candidate_of_get? h hv
    rw [hnamed] at hvs
    rw [hv, ((mem_iff_of_mem_pinAll hpins hvs).1 hmem).1]
  · next hn =>
    rw [← hsome] at hn
    exact Option.not_isSome_iff_eq_none.1 hn

/-- A candidate row goes where the row goes that pins the conditions down, if the columns that need
a value or decide the key of that row have candidates. -/
theorem positions_of_mem_candidateRows (hbuiltin : r.rule.IsBuiltin)
    (hpins : ∀ cond ∈ conditions, cond.Pins row)
    (hnamed : Router.named (pinAll r.rule conditions) = pinAll r.rule conditions)
    (hrequired : ∀ col ∈ r.rule.requiredColumns,
      col.name ∈ (pinAll r.rule conditions).map Prod.fst)
    (hdecided : ∀ n ∈ r.rule.consulted row, (row.value n).isNull = false →
      n ∈ (pinAll r.rule conditions).map Prod.fst)
    (h : row' ∈ Router.candidateRows (pinAll r.rule conditions)) :
    r.positions table row' = r.positions table row := by
  have hget := get?_of_mem_candidateRows hpins hnamed h
  have hkept : ∀ n ∈ (pinAll r.rule conditions).map Prod.fst, row'.value n = row.value n := by
    intro n hn
    rw [Row.value, Row.value, hget, if_pos hn]
  have hless : ∀ n, row'.value n = row.value n ∨ (row'.value n).isNull := by
    intro n
    by_cases hn : n ∈ (pinAll r.rule conditions).map Prod.fst
    · exact Or.inl (hkept n hn)
    · refine Or.inr ?_
      rw [Row.value, hget, if_neg hn]
      rfl
  refine Router.positions_of_consulted hbuiltin hless
    (fun col hcol => hkept _ (hrequired col hcol)) (fun n hn => ?_) table
  cases hnull : (row.value n).isNull with
  | false => exact hkept n (hdecided n hn hnull)
  | true =>
    rcases hless n with h | h
    · exact h
    · rw [Value.eq_null_of_isNull hnull, Value.eq_null_of_isNull h]

/-- Where a row pins the conditions down, the candidates go where all candidate rows go. -/
theorem routeAll_of_candidateRows (hpins : ∀ cond ∈ conditions, cond.Pins row)
    (hnamed : Router.named (pinAll r.rule conditions) = pinAll r.rule conditions)
    (hrequired : ∀ col ∈ r.rule.requiredColumns,
      col.name ∈ (pinAll r.rule conditions).map Prod.fst)
    {ps : List Nat} (hps : ∀ row' ∈ Router.candidateRows (pinAll r.rule conditions),
      r.positions table row' = .ok ps) :
    r.routeAll table (pinAll r.rule conditions) = .ok (r.targetsAt table ps.contains) := by
  have hsome : ∀ e ∈ Router.named (pinAll r.rule conditions), ∃ v, v ∈ e.2 := by
    intro e he
    rw [hnamed] at he
    obtain ⟨v, hv, hnull⟩ :=
      exists_get?_of_mem_pinAll hpins (List.mem_map_of_mem (f := Prod.fst) he)
    exact ⟨v, (mem_iff_of_mem_pinAll hpins he).2 ⟨hv, hnull⟩⟩
  exact Router.routeAll_of_forall (requiredColumns_eq_nil hrequired) hsome hps

/-- The candidates go where the row goes that pins the conditions down. -/
theorem routeAll_of_pins (hbuiltin : r.rule.IsBuiltin)
    (hpins : ∀ cond ∈ conditions, cond.Pins row)
    (hnamed : Router.named (pinAll r.rule conditions) = pinAll r.rule conditions)
    (hrequired : ∀ col ∈ r.rule.requiredColumns,
      col.name ∈ (pinAll r.rule conditions).map Prod.fst)
    (hdecided : ∀ n ∈ r.rule.consulted row, (row.value n).isNull = false →
      n ∈ (pinAll r.rule conditions).map Prod.fst)
    {ps : List Nat} (hps : r.positions table row = .ok ps) :
    r.routeAll table (pinAll r.rule conditions) = .ok (r.targetsAt table ps.contains) := by
  refine routeAll_of_candidateRows hpins hnamed hrequired fun row' hrow' => ?_
  rw [positions_of_mem_candidateRows hbuiltin hpins hnamed hrequired hdecided hrow', hps]

/-! ### Rows are found where they are stored -/

/-- A row that binds exactly what equalities ask for is found in each physical table where it is
stored, and the search succeeds, if the columns that decide the place of the row are required ones
or pinned by the equalities, under names that do not change when they are compared once more. -/
theorem targets_subset_of_pins {s : Settings} (hbuild : build Registry.builtin s = .ok c)
    (hfind : c.find table = .ok t) {stored : Route} (hstored : c.routeRow table row = .ok stored)
    (hpins : ∀ cond ∈ conditions, cond.Pins row)
    (hstable : ∀ r, t.placement = .routed r → ∀ cond ∈ conditions,
      r.rule.isColumn cond.column ∨ r.rule.isColumn (Identifier.normalize cond.column) →
        Identifier.normalize (Identifier.normalize cond.column) = Identifier.normalize cond.column)
    (hdecided : ∀ r, t.placement = .routed r → ∀ n ∈ r.rule.consulted row,
      (row.value n).isNull = false → (∃ col ∈ r.rule.requiredColumns, col.name = n) ∨
        r.rule.declares n ∧ ∃ cond ∈ conditions, Identifier.normalize cond.column = n) :
    ∃ found, c.routeConditions table conditions = .ok found ∧
      ∀ target ∈ stored.targets, target ∈ found.targets := by
  by_cases hrouted : ∃ r, t.placement = .routed r
  · obtain ⟨r, hr⟩ := hrouted
    rw [routeRow_routed hfind hr] at hstored
    obtain ⟨targets, htargets, hone⟩ := bind_eq_ok_iff.1 hstored
    obtain ⟨ps, hps, htargets⟩ := bind_eq_ok_iff.1 htargets
    split at hone
    on_goal 2 => cases hone
    cases htargets
    cases hone
    rw [routeConditions_routed hfind hr]
    split
    · next hrequired =>
      have hnamed := named_pinAll fun cond hcond hcolumn =>
        hstable r hr cond hcond (Or.inr hcolumn)
      have hpinned : ∀ n ∈ r.rule.consulted row, (row.value n).isNull = false →
          n ∈ (pinAll r.rule conditions).map Prod.fst := by
        intro n hn hnull
        rcases hdecided r hr n hn hnull with ⟨col, hcol, rfl⟩ | ⟨hdecl, cond, hcond, rfl⟩
        · exact hrequired col hcol
        · obtain ⟨v, hequals, -⟩ := hpins cond hcond
          refine mem_map_fst_pinAll_iff.2 ⟨cond, hcond, ?_, by rw [hequals]; rfl, rfl⟩
          rw [Rule.isColumn_eq, hstable r hr cond hcond (Or.inl hdecl)]
          exact hdecl
      have hbuiltin : r.rule.IsBuiltin := fun run args hkind =>
        exists_find?_of_find hbuild hfind hr hkind
      rw [routeAll_of_pins hbuiltin hpins hnamed hrequired hpinned hps]
      exact ⟨_, rfl, fun target h => h⟩
    · exact ⟨_, rfl, fun target h => Router.targetsAt_subset_allTargets h⟩
  · rw [routeConditions_eq_routeRow hfind (fun r hr => hrouted ⟨r, hr⟩) conditions row, hstored]
    exact ⟨stored, rfl, fun target h => h⟩

/-- Settings with a rule whose first column may be absent. -/
def tenantSettings : Settings where
  shards := [{ name := "s0" }, { name := "s1" }]
  routers := [{ id := "by-tenant", partition := [{ shard := "s0" }, { shard := "s1" }]
                rule :=
                  { columns := [{ name := "tenant", required := false }, { name := "user_id" }]
                    algorithm := some "mod" } }]
  tables := [{ name := "orders", router := some "by-tenant" }]

/-- The router of these settings. -/
def tenantRouter : Router where
  id := "by-tenant"
  partition := [⟨"s0", ""⟩, ⟨"s1", ""⟩]
  rule := ⟨[{ name := "tenant", required := false }, { name := "user_id" }],
    .algorithm KeyAlgorithm.remainder []⟩

/-- The catalog of these settings. -/
def tenantCatalog : Catalog where
  tables := [⟨"orders", .routed tenantRouter⟩]

/-- A row with values in both columns. -/
def tenantRow : Row := [("tenant", .int 1), ("user_id", .int 2)]

/-- The row is found where it is stored under equalities for both columns. -/
theorem targets_subset_of_pins_tenant :
    ∃ found, tenantCatalog.routeConditions "orders"
        [⟨"user_id", .equals (.int 2)⟩, ⟨"tenant", .equals (.int 1)⟩] = .ok found ∧
      ∀ target ∈ [(⟨"s1", "orders", ""⟩ : Target)], target ∈ found.targets := by
  have hbuild : build Registry.builtin tenantSettings = .ok tenantCatalog := by cbv
  have hfind : tenantCatalog.find "orders" = .ok ⟨"orders", .routed tenantRouter⟩ := by rfl
  have hstored : tenantCatalog.routeRow "orders" tenantRow =
      .ok { targets := [⟨"s1", "orders", ""⟩] } := by decide +kernel
  refine targets_subset_of_pins hbuild hfind hstored ?_ ?_ ?_
  · intro cond hcond
    simp only [List.mem_cons, List.not_mem_nil, or_false] at hcond
    obtain rfl | rfl := hcond
    · exact ⟨.int 2, rfl, rfl, by decide +kernel⟩
    · exact ⟨.int 1, rfl, rfl, by decide +kernel⟩
  · rintro r ⟨⟩
    decide +kernel
  · rintro r ⟨⟩
    decide +kernel

/-- An equality for the required column alone misses the row, which is stored by its tenant. -/
theorem not_targets_subset_of_pins :
    ¬ ∀ (s : Settings) (c : Catalog) (table : String) (row : Row) (conditions : List Condition)
      (stored found : Route), build Registry.builtin s = .ok c →
        c.routeRow table row = .ok stored → (∀ cond ∈ conditions, cond.Pins row) →
          (conditions.map fun cond => Identifier.normalize cond.column).Nodup →
            c.routeConditions table conditions = .ok found →
              ∀ target ∈ stored.targets, target ∈ found.targets := by
  intro h
  have hmissed := h tenantSettings tenantCatalog "orders" tenantRow
    [⟨"user_id", .equals (.int 2)⟩] { targets := [⟨"s1", "orders", ""⟩] }
    { targets := [⟨"s0", "orders", ""⟩] } (by cbv) (by decide +kernel)
    (fun cond hcond => List.mem_singleton.1 hcond ▸ ⟨.int 2, rfl, rfl, by decide +kernel⟩)
    (List.nodup_singleton _) (by decide +kernel)
  exact absurd hmissed (by decide +kernel)

/-! ### Conditions that tell nothing -/

/-- Where no condition lists values for a rule column, all physical tables are taken if some column
needs a value. If none does, the rule is asked for the empty row, provided that no condition lists
values for a rule column when its name is compared once more. -/
theorem routeConditions_of_free (hfind : c.find table = .ok t) (hrouted : t.placement = .routed r)
    (hfree : ∀ cond ∈ conditions, (listedValues? cond.restriction).isSome →
      ¬ r.rule.isColumn cond.column) :
    (r.rule.requiredColumns ≠ [] → c.routeConditions table conditions =
      .ok { targets := r.partition.map (Router.targetOf t.name), fullScan := true }) ∧
    (r.rule.requiredColumns = [] →
      (∀ cond ∈ conditions, (listedValues? cond.restriction).isSome →
        ¬ r.rule.isColumn (Identifier.normalize cond.column)) →
      c.routeConditions table conditions = r.positionsOf [] >>= fun positions =>
        .ok { targets := r.targetsAt t.name positions.contains }) := by
  rw [routeConditions_routed hfind hrouted]
  constructor
  · intro hrequired
    obtain ⟨col, hcol⟩ := List.exists_mem_of_ne_nil _ hrequired
    rw [if_neg, Router.allTargets]
    intro hpinned
    obtain ⟨cond, hcond, -, hlisted, hname⟩ := mem_map_fst_pinAll_iff.1 (hpinned col hcol)
    refine hfree cond hcond hlisted ?_
    rw [Rule.isColumn_eq, hname]
    exact Rule.declares_of_mem_requiredColumns hcol
  · intro hrequired hfree'
    have hnil : pinAll r.rule conditions = [] := by
      refine List.eq_nil_iff_forall_not_mem.2 fun e he => ?_
      obtain ⟨cond, hcond, hcolumn, hlisted, -⟩ :=
        mem_map_fst_pinAll_iff.1 (List.mem_map_of_mem (f := Prod.fst) he)
      exact hfree' cond hcond hlisted hcolumn
    rw [if_pos (by rw [hrequired]; exact nofun), hnil]
    show (r.positionsOf [] >>= fun positions => .ok (r.targetsAt t.name positions.contains)) >>= _ =
      _
    cases r.positionsOf [] <;> rfl

/-- Settings with a rule whose only column may be absent. -/
def optionalSettings : Settings where
  shards := [{ name := "s0" }, { name := "s1" }]
  routers := [{ id := "by-tenant", partition := [{ shard := "s0" }, { shard := "s1" }]
                rule := { columns := [{ name := "tenant", required := false }]
                          algorithm := some "mod" } }]
  tables := [{ name := "orders", router := some "by-tenant" }]

/-- The router of these settings. -/
def optionalRouter : Router where
  id := "by-tenant"
  partition := [⟨"s0", ""⟩, ⟨"s1", ""⟩]
  rule := ⟨[{ name := "tenant", required := false }], .algorithm KeyAlgorithm.remainder []⟩

/-- The catalog of these settings. -/
def optionalCatalog : Catalog where
  tables := [⟨"orders", .routed optionalRouter⟩]

/-- Ranges of rule columns, and equalities for other columns, tell nothing: with a required column
all physical tables are taken, and without one the remainder has nothing to start from. -/
theorem routeConditions_of_free_tenant :
    tenantCatalog.routeConditions "orders"
        [⟨"user_id", .between (some (.int 1)) none⟩, ⟨"amount", .equals (.int 3)⟩] =
      .ok { targets := [⟨"s0", "orders", ""⟩, ⟨"s1", "orders", ""⟩], fullScan := true } ∧
    optionalCatalog.routeConditions "orders"
        [⟨"tenant", .between (some (.int 1)) none⟩, ⟨"amount", .equals (.int 3)⟩] =
      .error (.noKey "by-tenant" .noValue) := by
  have hfind : tenantCatalog.find "orders" = .ok ⟨"orders", .routed tenantRouter⟩ := by rfl
  have hfind' : optionalCatalog.find "orders" = .ok ⟨"orders", .routed optionalRouter⟩ := by rfl
  exact ⟨(routeConditions_of_free hfind rfl (by decide +kernel)).1 (by decide +kernel),
    (routeConditions_of_free hfind' rfl (by decide +kernel)).2 rfl (by decide +kernel)⟩

/-- Without required columns a list of conditions that tells nothing can lead to no table. -/
theorem not_routeConditions_of_free :
    ¬ ∀ (s : Settings) (c : Catalog) (table : String) (t : Table) (r : Router)
      (conditions : List Condition), build Registry.builtin s = .ok c → c.find table = .ok t →
        t.placement = .routed r →
          (∀ cond ∈ conditions, (listedValues? cond.restriction).isSome →
            ¬ r.rule.isColumn cond.column) →
          c.routeConditions table conditions =
            .ok { targets := r.partition.map (Router.targetOf t.name), fullScan := true } := by
  intro h
  have hscan := h optionalSettings optionalCatalog "orders" ⟨"orders", .routed optionalRouter⟩
    optionalRouter [] (by cbv) rfl rfl nofun
  exact absurd hscan (by decide +kernel)

end Catalog

end ShardRouting
