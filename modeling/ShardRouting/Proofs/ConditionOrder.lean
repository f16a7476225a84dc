import Mathlib
import ShardRouting.Proofs.Accepted
import ShardRouting.Proofs.Candidates
import ShardRouting.Proofs.Interchangeable

/-!
# The order of conditions

All conditions of a statement are to be met, so their order should not matter. Yet of several
conditions on a column the first one's values are kept, and the others only strike some of them out:
of values that count as one key the first one is routed, and the rule may tell them apart.

* `Catalog.Coherent`: conditions whose values of one key are interchangeable.
* `Catalog.routeConditions_perm`: such conditions can be put in any order; and of two equalities
  with one key the first alone decides.
* `Catalog.not_routeConditions_perm`: a number and its text, in both orders.
-/

namespace ShardRouting

/-- A condition that lists a value for a column of a rule, given by its compared name. -/
def Condition.Lists (cond : Condition) (rule : Rule) (n : String) (v : Value) : Prop :=
  ∃ e, Catalog.listed? rule cond = some e ∧ e.1 = n ∧ v ∈ e.2

namespace Catalog

/-- Conditions that can be put in any order for a router. -/
structure Coherent (r : Router) (conditions : List Condition) : Prop where
  /-- Rule columns that are the same when their names are compared once more are the same. -/
  columns : ∀ c₁ ∈ conditions, ∀ c₂ ∈ conditions, (listed? r.rule c₁).isSome →
    (listed? r.rule c₂).isSome →
      Identifier.normalize (Identifier.normalize c₁.column) =
          Identifier.normalize (Identifier.normalize c₂.column) →
        Identifier.normalize c₁.column = Identifier.normalize c₂.column
  /-- Values of one key that different conditions list for a column are interchangeable. -/
  values : ∀ c₁ ∈ conditions, ∀ c₂ ∈ conditions, c₁ ≠ c₂ → ∀ n a b, c₁.Lists r.rule n a →
    c₂.Lists r.rule n b → a.sameKey b → r.Interchangeable (Identifier.normalize n) a b
  /-- Such values are the same key as the same values. -/
  keys : ∀ c₁ ∈ conditions, ∀ c₂ ∈ conditions, c₁ ≠ c₂ → ∀ n a b, c₁.Lists r.rule n a →
    c₂.Lists r.rule n b → a.sameKey b →
      ∀ c₃ ∈ conditions, ∀ d, c₃.Lists r.rule n d → b.sameKey d → a.sameKey d

variable {c : Catalog} {table : String} {r : Router} {conditions conditions' : List Condition}

/-- Coherence does not depend on the order. -/
theorem Coherent.perm (h : Coherent r conditions) (hperm : conditions.Perm conditions') :
    Coherent r conditions' where
  columns c₁ h₁ c₂ h₂ := h.columns c₁ (hperm.mem_iff.2 h₁) c₂ (hperm.mem_iff.2 h₂)
  values c₁ h₁ c₂ h₂ := h.values c₁ (hperm.mem_iff.2 h₁) c₂ (hperm.mem_iff.2 h₂)
  keys c₁ h₁ c₂ h₂ hne n a b ha hb hab c₃ h₃ :=
    h.keys c₁ (hperm.mem_iff.2 h₁) c₂ (hperm.mem_iff.2 h₂) hne n a b ha hb hab c₃
      (hperm.mem_iff.2 h₃)

/-! ### Candidates under another order -/

/-- No candidate value is absent. -/
theorem isNull_of_mem_pinAll {rule : Rule} {n : String} {vs : List Value}
    (h : (n, vs) ∈ pinAll rule conditions) {v : Value} (hv : v ∈ vs) : v.isNull = false := by
  rw [pinAll_eq] at h
  obtain ⟨first, hfirst, -, hvs⟩ := exists_first_of_mem_pinEntries h
  obtain ⟨cond, -, he⟩ := List.mem_filterMap.1 hfirst
  obtain ⟨-, values, -, rfl⟩ := listed?_eq_some_iff.1 he
  have hin := (List.mem_filter.1 ((distinctKeys_sublist _).subset ((hvs v).1 hv).1)).2
  simpa using hin

/-- The same columns have candidates in any order. -/
theorem mem_map_fst_pinAll_perm {rule : Rule} (hperm : conditions.Perm conditions') {n : String} :
    n ∈ (pinAll rule conditions).map Prod.fst ↔ n ∈ (pinAll rule conditions').map Prod.fst := by
  simp only [mem_map_fst_pinAll_iff, hperm.mem_iff]

/-- A candidate value has a counterpart under another order: itself, or a value that is
interchangeable with it. -/
theorem exists_counterpart (hcoherent : Coherent r conditions) (hperm : conditions.Perm conditions')
    {n : String} {vs vs' : List Value} (h : (n, vs) ∈ pinAll r.rule conditions)
    (h' : (n, vs') ∈ pinAll r.rule conditions') {v : Value} (hv : v ∈ vs) :
    ∃ v' ∈ vs', v' = v ∨ r.Interchangeable (Identifier.normalize n) v' v := by
  rw [pinAll_eq] at h h'
  obtain ⟨first, hfirst, hname, hvs⟩ := exists_first_of_mem_pinEntries h
  obtain ⟨first', hfirst', hname', hvs'⟩ := exists_first_of_mem_pinEntries h'
  have hmem : ∀ e, e ∈ conditions'.filterMap (listed? r.rule) ↔
      e ∈ conditions.filterMap (listed? r.rule) := fun e => (hperm.filterMap _).mem_iff.symm
  obtain ⟨hlisted, hstays⟩ := (hvs v).1 hv
  by_cases hsame : first' = first
  · -- the same condition comes first, and keeps the value
    subst hsame
    refine ⟨v, (hvs' v).2 ⟨hlisted, fun e he => hstays e ((hmem e).1 he)⟩, Or.inl rfl⟩
  · obtain ⟨x, hx, hxv⟩ := hstays first' ((hmem _).1 hfirst') hname'
    obtain ⟨c₁, hc₁, he₁⟩ := List.mem_filterMap.1 ((hmem _).1 hfirst')
    obtain ⟨c₂, hc₂, he₂⟩ := List.mem_filterMap.1 hfirst
    have hne : c₁ ≠ c₂ := by
      rintro rfl
      rw [he₁] at he₂
      cases he₂
      exact hsame rfl
    have hx₁ : c₁.Lists r.rule n x := ⟨first', he₁, hname', hx⟩
    have hv₂ : c₂.Lists r.rule n v := ⟨first, he₂, hname, hlisted⟩
    refine ⟨x, (hvs' x).2 ⟨hx, fun e he hn => ?_⟩,
      Or.inr (hcoherent.values c₁ hc₁ c₂ hc₂ hne n x v hx₁ hv₂ hxv)⟩
    obtain ⟨y, hy, hyv⟩ := hstays e ((hmem e).1 he) hn
    obtain ⟨c₃, hc₃, he₃⟩ := List.mem_filterMap.1 ((hmem e).1 he)
    refine ⟨y, hy, ?_⟩
    rw [Value.sameKey_comm] at hyv ⊢
    exact hcoherent.keys c₁ hc₁ c₂ hc₂ hne n x v hx₁ hv₂ hxv c₃ hc₃ y ⟨e, he₃, hn, hy⟩ hyv

/-- Columns with candidates whose names agree when they are compared once more agree. -/
theorem Coherent.eq_of_normalize (hcoherent : Coherent r conditions) {m n : String}
    (hm : m ∈ (pinAll r.rule conditions).map Prod.fst)
    (hn : n ∈ (pinAll r.rule conditions).map Prod.fst)
    (h : Identifier.normalize m = Identifier.normalize n) : m = n := by
  rw [pinAll_eq, mem_map_fst_pinEntries] at hm hn
  obtain ⟨e₁, he₁, rfl⟩ := List.mem_map.1 hm
  obtain ⟨e₂, he₂, rfl⟩ := List.mem_map.1 hn
  obtain ⟨c₁, hc₁, he₁⟩ := List.mem_filterMap.1 he₁
  obtain ⟨c₂, hc₂, he₂⟩ := List.mem_filterMap.1 he₂
  have hs₁ := Option.isSome_of_eq_some he₁
  have hs₂ := Option.isSome_of_eq_some he₂
  obtain ⟨-, vs₁, -, rfl⟩ := listed?_eq_some_iff.1 he₁
  obtain ⟨-, vs₂, -, rfl⟩ := listed?_eq_some_iff.1 he₂
  exact hcoherent.columns c₁ hc₁ c₂ hc₂ hs₁ hs₂ h

/-- The names that candidate rows bind are the compared names of columns with candidates. -/
theorem mem_map_fst_named_iff {cands : List (String × List Value)} {n : String} :
    n ∈ (Router.named cands).map Prod.fst ↔
      ∃ m ∈ cands.map Prod.fst, Identifier.normalize m = n := by
  simp only [Router.named, List.map_map, List.mem_map]
  constructor
  · rintro ⟨e, he, rfl⟩
    exact ⟨e.1, ⟨e, he, rfl⟩, rfl⟩
  · rintro ⟨-, ⟨e, he, rfl⟩, rfl⟩
    exact ⟨e, he, rfl⟩

/-- A value that a candidate row binds has a counterpart for the same column under another order. -/
theorem exists_counterpart_of_get? (hcoherent : Coherent r conditions)
    (hperm : conditions.Perm conditions') {row : Row}
    (hrow : row ∈ Router.candidateRows (pinAll r.rule conditions)) {e' : String × List Value}
    (he' : e' ∈ Router.named (pinAll r.rule conditions')) :
    ∃ v' ∈ e'.2, v'.isNull = false ∧ ∃ v, row.get? e'.1 = some v ∧ v.isNull = false ∧
      (v' = v ∨ r.Interchangeable e'.1 v' v) := by
  obtain ⟨⟨m, vs'⟩, hm', rfl⟩ := List.mem_map.1 he'
  have hm : m ∈ (pinAll r.rule conditions).map Prod.fst :=
    (mem_map_fst_pinAll_perm hperm).2 (List.mem_map_of_mem (f := Prod.fst) hm')
  obtain ⟨v, hv⟩ := Option.isSome_iff_exists.1
    ((Router.isSome_get?_iff_of_mem_candidateRows hrow).2 (mem_map_fst_named_iff.2 ⟨m, hm, rfl⟩))
  obtain ⟨vs, hvs, hmem⟩ := Router.exists_candidate_of_get? hrow hv
  obtain ⟨⟨m₂, vs₂⟩, hm₂, he⟩ := List.mem_map.1 hvs
  obtain ⟨hname, rfl⟩ := Prod.mk.inj he
  obtain rfl : m₂ = m :=
    hcoherent.eq_of_normalize (List.mem_map_of_mem (f := Prod.fst) hm₂) hm hname
  obtain ⟨v', hv', hrelated⟩ := exists_counterpart hcoherent hperm hm₂ hm' hmem
  exact ⟨v', hv', isNull_of_mem_pinAll hm' hv', v, hv, isNull_of_mem_pinAll hm₂ hmem, hrelated⟩

/-- A candidate row has a counterpart under another order, which goes to the same parts. -/
theorem exists_matching_row (hcoherent : Coherent r conditions)
    (hperm : conditions.Perm conditions') {row : Row}
    (hrow : row ∈ Router.candidateRows (pinAll r.rule conditions)) (table : String) :
    ∃ row' ∈ Router.candidateRows (pinAll r.rule conditions'),
      (r.positions table row').toOption = (r.positions table row).toOption := by
  have hcounterpart := fun e' (he' : e' ∈ Router.named (pinAll r.rule conditions')) =>
    exists_counterpart_of_get? hcoherent hperm hrow he'
  choose! choice hchoice hnull hrelated using hcounterpart
  obtain ⟨row', hrow', hbinds⟩ := Router.exists_candidateRow hchoice
  have hbound : ∀ n, (row'.get? n).isSome ↔ (row.get? n).isSome := by
    intro n
    rw [Router.isSome_get?_iff_of_mem_candidateRows hrow',
      Router.isSome_get?_iff_of_mem_candidateRows hrow, mem_map_fst_named_iff,
      mem_map_fst_named_iff]
    simp only [mem_map_fst_pinAll_perm hperm]
  have hvalue : ∀ n, (row'.value n).isNull = (row.value n).isNull ∧
      (row'.value n = row.value n ∨ r.Interchangeable n (row'.value n) (row.value n)) := by
    intro n
    cases hv' : row'.get? n with
    | none =>
      have hv : row.get? n = none := by
        have := hbound n
        rw [hv'] at this
        exact Option.not_isSome_iff_eq_none.1 fun h => nomatch this.2 h
      rw [Row.value, Row.value, hv', hv]
      exact ⟨rfl, Or.inl rfl⟩
    | some v' =>
      obtain ⟨e', he', rfl, rfl⟩ := hbinds n v' hv'
      obtain ⟨v, hv, hnull', hv'v⟩ := hrelated e' he'
      rw [Row.value, Row.value, hv', hv]
      exact ⟨(hnull e' he').trans hnull'.symm, hv'v⟩
  refine ⟨row', hrow', Router.positions_toOption_congr
    ((Router.named (pinAll r.rule conditions')).map Prod.fst) (fun n => (hvalue n).1) ?_
    (fun n _ => (hvalue n).2) table⟩
  intro n hn
  rw [← Router.isSome_get?_iff_of_mem_candidateRows hrow'] at hn
  have hn' := hn
  rw [hbound] at hn'
  rw [Row.value, Row.value, Option.not_isSome_iff_eq_none.1 hn, Option.not_isSome_iff_eq_none.1 hn']

/-- If some column has no candidate left in one order, then so in another. -/
theorem any_isEmpty_of_perm (hcoherent : Coherent r conditions)
    (hperm : conditions.Perm conditions')
    (h : (pinAll r.rule conditions').any fun e => e.2.isEmpty) :
    (pinAll r.rule conditions).any fun e => e.2.isEmpty := by
  obtain ⟨⟨n, vs'⟩, he', hempty⟩ := List.any_eq_true.1 h
  obtain ⟨⟨m, vs⟩, he, rfl⟩ := List.mem_map.1
    ((mem_map_fst_pinAll_perm hperm).2 (List.mem_map_of_mem (f := Prod.fst) he'))
  refine List.any_eq_true.2 ⟨_, he, ?_⟩
  rw [List.isEmpty_iff] at hempty ⊢
  refine List.eq_nil_iff_forall_not_mem.2 fun v hv => ?_
  obtain ⟨v', hv', -⟩ := exists_counterpart hcoherent hperm he he' hv
  have hnone : v' ∈ ([] : List Value) := hempty ▸ hv'
  cases hnone

/-- Candidates lead to the same tables in any order, or to none in all. -/
theorem routeAll_toOption_perm (hcoherent : Coherent r conditions)
    (hperm : conditions.Perm conditions')
    (hrequired : ∀ col ∈ r.rule.requiredColumns,
      col.name ∈ (pinAll r.rule conditions).map Prod.fst) (table : String) :
    (r.routeAll table (pinAll r.rule conditions)).toOption =
      (r.routeAll table (pinAll r.rule conditions')).toOption := by
  have hcoherent' := hcoherent.perm hperm
  have hempty : ((pinAll r.rule conditions).any fun e => e.2.isEmpty) =
      (pinAll r.rule conditions').any fun e => e.2.isEmpty := by
    rw [Bool.eq_iff_iff]
    exact ⟨any_isEmpty_of_perm hcoherent' hperm.symm, any_isEmpty_of_perm hcoherent hperm⟩
  exact Router.routeAll_toOption_congr (requiredColumns_eq_nil hrequired)
    (requiredColumns_eq_nil fun col hcol => (mem_map_fst_pinAll_perm hperm).1 (hrequired col hcol))
    hempty (fun row hrow => exists_matching_row hcoherent hperm hrow table)
    (fun row hrow => exists_matching_row hcoherent' hperm.symm hrow table)

/-! ### Any order of conditions -/

/-- Of two equalities for a column with one key, only the first counts. -/
theorem pinAll_equals_equals {rule : Rule} {column : String} {a b : Value} (hab : a.sameKey b)
    (hcolumn : rule.isColumn (Identifier.normalize column)) (ha : a.isNull = false)
    (hb : b.isNull = false) (rest : List Condition) :
    pinAll rule (⟨column, .equals a⟩ :: ⟨column, .equals b⟩ :: rest) =
      pinAll rule (⟨column, .equals a⟩ :: rest) := by
  have hpin : ∀ pinned : List (String × List Value), ∀ v : Value, v.isNull = false →
      pinCondition rule pinned ⟨column, .equals v⟩ =
        pin pinned (Identifier.normalize column) [v] := by
    intro pinned v hv
    simp [pinCondition, hcolumn, listedValues?, hv]
  have hba : b.sameKey a := Value.sameKey_comm b a ▸ hab
  unfold pinAll
  rw [List.foldl_cons, List.foldl_cons, List.foldl_cons, hpin _ _ ha, hpin _ _ hb]
  simp [pin, hba]

/-- Coherent conditions can be put in any order: they fail in all, or have one route in all. And of
two equalities for a column of a rule with one key the first alone is routed, so that their order
does not matter exactly if either alone is routed alike. -/
theorem routeConditions_perm :
    (∀ conditions conditions', conditions.Perm conditions' →
      (∀ t r, c.find table = .ok t → t.placement = .routed r → Coherent r conditions) →
        (c.routeConditions table conditions).toOption =
          (c.routeConditions table conditions').toOption) ∧
    ∀ t r, c.find table = .ok t → t.placement = .routed r → ∀ column a b rest,
      r.rule.isColumn (Identifier.normalize column) → a.isNull = false → b.isNull = false →
        a.sameKey b →
        c.routeConditions table (⟨column, .equals a⟩ :: ⟨column, .equals b⟩ :: rest) =
            c.routeConditions table (⟨column, .equals a⟩ :: rest) ∧
          c.routeConditions table (⟨column, .equals b⟩ :: ⟨column, .equals a⟩ :: rest) =
            c.routeConditions table (⟨column, .equals b⟩ :: rest) := by
  constructor
  · intro conditions conditions' hperm hcoherent
    cases hfind : c.find table with
    | error fault => rw [routeConditions, routeConditions, hfind]; rfl
    | ok t =>
      by_cases hrouted : ∃ r, t.placement = .routed r
      · obtain ⟨r, hr⟩ := hrouted
        rw [routeConditions_routed hfind hr, routeConditions_routed hfind hr]
        simp only [← mem_map_fst_pinAll_perm hperm]
        split
        · next hrequired =>
          exact toOption_bind_congr
            (routeAll_toOption_perm (hcoherent t r hfind hr) hperm hrequired t.name) fun _ _ => rfl
        · rfl
      · have hnot : ∀ r, t.placement ≠ .routed r := fun r hr => hrouted ⟨r, hr⟩
        rw [routeConditions_eq_routeRow hfind hnot conditions [],
          routeConditions_eq_routeRow hfind hnot conditions' []]
  · intro t r hfind hr column a b rest hcolumn ha hb hab
    have hba : b.sameKey a := Value.sameKey_comm b a ▸ hab
    rw [routeConditions_routed hfind hr, routeConditions_routed hfind hr,
      routeConditions_routed hfind hr, routeConditions_routed hfind hr,
      pinAll_equals_equals hab hcolumn ha hb, pinAll_equals_equals hba hcolumn hb ha]
    exact ⟨rfl, rfl⟩

/-- Settings with a rule that reads the bytes of a value. -/
def bytesSettings : Settings where
  shards := [{ name := "s0" }, { name := "s1" }, { name := "s2" }]
  routers := [{ id := "by-bytes"
                partition := [{ shard := "s0" }, { shard := "s1" }, { shard := "s2" }]
                rule := { columns := [{ name := "user_id" }], algorithm := some "crc32_mod" } }]
  tables := [{ name := "orders", router := some "by-bytes" }]

/-- The router of these settings. -/
def bytesRouter : Router where
  id := "by-bytes"
  partition := [⟨"s0", ""⟩, ⟨"s1", ""⟩, ⟨"s2", ""⟩]
  rule := ⟨[{ name := "user_id" }], .algorithm KeyAlgorithm.crc32Remainder []⟩

/-- The catalog of these settings. -/
def bytesCatalog : Catalog where
  tables := [⟨"orders", .routed bytesRouter⟩]

/-- Equalities with a signed and an unsigned integer. -/
def integerConditions : List Condition :=
  [⟨"user_id", .equals (.int 5)⟩, ⟨"USER_ID", .equals (.uint 5)⟩]

/-- Signed and unsigned integers can be asked for in either order; a number and its text are two
equalities of which only the first counts. -/
theorem routeConditions_perm_integers :
    (bytesCatalog.routeConditions "orders" integerConditions).toOption =
        (bytesCatalog.routeConditions "orders" integerConditions.reverse).toOption ∧
      bytesCatalog.routeConditions "orders"
          [⟨"user_id", .equals (.int 5)⟩, ⟨"user_id", .equals (.text "5")⟩] =
        bytesCatalog.routeConditions "orders" [⟨"user_id", .equals (.int 5)⟩] := by
  have hfind : bytesCatalog.find "orders" = .ok ⟨"orders", .routed bytesRouter⟩ := by rfl
  obtain ⟨hperm, hfirst⟩ := @routeConditions_perm bytesCatalog "orders"
  have hlists : ∀ cond ∈ integerConditions, ∀ n v, cond.Lists bytesRouter.rule n v →
      v = .int 5 ∨ v = .uint 5 := by
    rintro cond hcond n v ⟨e, he, -, hv⟩
    simp only [integerConditions, List.mem_cons, List.not_mem_nil, or_false] at hcond
    obtain rfl | rfl := hcond
    · cases (by decide +kernel : listed? bytesRouter.rule ⟨"user_id", .equals (.int 5)⟩ =
        some ("user_id", [.int 5])).symm.trans he
      exact Or.inl (List.mem_singleton.1 hv)
    · cases (by decide +kernel : listed? bytesRouter.rule ⟨"USER_ID", .equals (.uint 5)⟩ =
        some ("user_id", [.uint 5])).symm.trans he
      exact Or.inr (List.mem_singleton.1 hv)
  have hbuiltin : bytesRouter.rule.IsBuiltin := by
    intro run args hkind
    cases hkind
    exact ⟨"crc32_mod", rfl⟩
  constructor
  · refine hperm _ _ (List.reverse_perm _).symm fun t r ht hr => ?_
    cases hfind.symm.trans ht
    cases hr
    constructor
    · decide +kernel
    · rintro c₁ h₁ c₂ h₂ - n a b ha hb -
      rcases hlists c₁ h₁ n a ha with rfl | rfl <;> rcases hlists c₂ h₂ n b hb with rfl | rfl <;>
        exact Router.interchangeable_of_views hbuiltin (by decide +kernel) (by decide +kernel)
          (by decide +kernel) (by decide +kernel) (by decide +kernel) _
    · rintro c₁ h₁ c₂ h₂ - n a b ha hb - c₃ h₃ d hd -
      rcases hlists c₁ h₁ n a ha with rfl | rfl <;> rcases hlists c₃ h₃ n d hd with rfl | rfl <;>
        decide +kernel
  · exact (hfirst _ _ hfind rfl "user_id" (.int 5) (.text "5") [] (by decide +kernel) rfl rfl
      (by decide +kernel)).1

/-- A number and its text are one key with different bytes, and their order decides. -/
theorem not_routeConditions_perm :
    ¬ ∀ (s : Settings) (c : Catalog) (table : String) (conditions conditions' : List Condition),
      build Registry.builtin s = .ok c → conditions.Perm conditions' →
        (c.routeConditions table conditions).toOption =
          (c.routeConditions table conditions').toOption := by
  intro h
  have hsame := h bytesSettings bytesCatalog "orders"
    [⟨"user_id", .equals (.int 5)⟩, ⟨"user_id", .equals (.text "5")⟩]
    [⟨"user_id", .equals (.text "5")⟩, ⟨"user_id", .equals (.int 5)⟩] (by cbv) (.swap _ _ _)
  exact absurd hsame (by decide +kernel)

end Catalog

end ShardRouting
