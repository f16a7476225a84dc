import Mathlib
import ShardRouting.Proofs.ConditionOrder
import ShardRouting.Proofs.ScanRoute

/-!
# Alternatives for a column

A condition that lists alternatives for a column asks for the rows that meet one of the equalities.
It is routed once, for the values that are left when repetitions of a key are left out; a value that
is left out this way can have a place of its own.

* `Router.mem_candidateRows_concat_iff`: candidate rows by the value of the last column.
* `Router.AgreeOn`: two values whose rows go to the same parts, wherever both go somewhere.
* `Catalog.routeConditions_oneOf`: alternatives lead to the targets of the equalities for the values
  that are kept, and to those of all equalities if values of one key agree.
* `Catalog.not_routeConditions_oneOf`: a number and its text, of which the text is left out.
-/

namespace ShardRouting

/-! ### The last column with candidates -/

namespace Router

variable {r : Router} {table n : String} {cands : List (String × List Value)} {vs : List Value}

/-- A combination with one more column is a combination and a value for that column. -/
theorem mem_combinations_concat_iff {bindings : List (String × Value)} :
    bindings ∈ combinations (cands ++ [(n, vs)]) ↔
      ∃ front ∈ combinations cands, ∃ v ∈ vs, bindings = front ++ [(n, v)] := by
  induction cands generalizing bindings with
  | nil =>
    simp only [List.nil_append, combinations, List.map_cons, List.map_nil, List.mem_flatMap,
      List.mem_singleton, exists_eq_left]
  | cons c cands ih =>
    simp only [List.cons_append, combinations, List.mem_flatMap, List.mem_map, ih]
    constructor
    · rintro ⟨w, hw, -, ⟨front, hfront, v, hv, rfl⟩, rfl⟩
      exact ⟨_, ⟨w, hw, front, hfront, rfl⟩, v, hv, rfl⟩
    · rintro ⟨-, ⟨w, hw, front, hfront, rfl⟩, v, hv, rfl⟩
      exact ⟨w, hw, _, ⟨front, hfront, v, hv, rfl⟩, rfl⟩

/-- A candidate row with one more column is a candidate row with a value bound to that column. -/
theorem mem_candidateRows_concat_iff {row : Row} :
    row ∈ candidateRows (cands ++ [(n, vs)]) ↔
      ∃ front ∈ candidateRows cands, ∃ v ∈ vs, row = front.insert (Identifier.normalize n) v := by
  have hnamed : named (cands ++ [(n, vs)]) = named cands ++ [(Identifier.normalize n, vs)] := by
    rw [named, List.map_append]
    rfl
  have hrow : ∀ front : List (String × Value), ∀ v,
      rowOf (front ++ [(Identifier.normalize n, v)]) =
        (rowOf front).insert (Identifier.normalize n) v := by
    intro front v
    rw [rowOf, List.foldl_append]
    rfl
  simp only [candidateRows, hnamed, List.mem_map, mem_combinations_concat_iff]
  constructor
  · rintro ⟨-, ⟨front, hfront, v, hv, rfl⟩, rfl⟩
    exact ⟨_, ⟨front, hfront, rfl⟩, v, hv, hrow front v⟩
  · rintro ⟨-, ⟨front, hfront, rfl⟩, v, hv, rfl⟩
    exact ⟨_, ⟨front, hfront, v, hv, rfl⟩, hrow front v⟩

/-- A target is at some of several positions if it is the one at one of them. -/
theorem mem_targetsAt_contains_iff {ps : List Nat} {target : Target} :
    target ∈ r.targetsAt table ps.contains ↔
      ∃ p ∈ ps, ∃ part, r.partition[p]? = some part ∧ target = targetOf table part := by
  simp only [targetsAt, List.mem_map, List.mem_filter, List.contains_iff_mem, Prod.exists,
    List.mem_zipIdx_iff_getElem?]
  constructor
  · rintro ⟨part, p, ⟨hpart, hp⟩, rfl⟩
    exact ⟨p, hp, part, hpart, rfl⟩
  · rintro ⟨p, hp, part, hpart, rfl⟩
    exact ⟨part, p, ⟨hpart, hp⟩, rfl⟩

/-- Candidates none of which is missing lead to the parts of the candidate rows, if each of these
has some. -/
theorem routeAll_concat_eq_ok_iff (hvs : vs ≠ []) {targets : List Target} :
    r.routeAll table (cands ++ [(n, vs)]) = .ok targets ↔
      (cands.any fun e => e.2.isEmpty) = true ∧ targets = [] ∨
      (cands.any fun e => e.2.isEmpty) = false ∧ ∃ ps,
        r.positionsOfAll table (candidateRows (cands ++ [(n, vs)])) = .ok ps ∧
          targets = r.targetsAt table ps.contains := by
  have hany : ((cands ++ [(n, vs)]).any fun e => e.2.isEmpty) =
      cands.any fun e => e.2.isEmpty := by
    rw [List.any_append]
    simp [hvs]
  have hne : cands ++ [(n, vs)] = [] → r.rule.requiredColumns = [] := by simp
  rw [routeAll, hany, positionsOfCandidates_eq hne]
  cases cands.any fun e => e.2.isEmpty with
  | true => simp [eq_comm]
  | false =>
    simp only [Bool.false_eq_true, false_and, true_and, false_or, if_false, bind_eq_ok_iff]
    refine exists_congr fun ps => and_congr_right fun _ => ?_
    rw [Except.ok.injEq, eq_comm]

/-- Alternatives lead to the targets of their single values, if each of these leads to some. -/
theorem exists_routeAll_concat (hvs : vs ≠ [])
    (h : ∀ v ∈ vs, ∃ targets, r.routeAll table (cands ++ [(n, [v])]) = .ok targets) :
    ∃ found, r.routeAll table (cands ++ [(n, vs)]) = .ok found ∧ ∀ target, target ∈ found ↔
      ∃ v ∈ vs, ∃ targets, r.routeAll table (cands ++ [(n, [v])]) = .ok targets ∧
        target ∈ targets := by
  cases hempty : cands.any fun e => e.2.isEmpty with
  | true =>
    refine ⟨[], (routeAll_concat_eq_ok_iff hvs).2 (Or.inl ⟨hempty, rfl⟩), fun target => ?_⟩
    constructor
    · exact nofun
    · rintro ⟨v, -, targets, htargets, ht⟩
      rcases (routeAll_concat_eq_ok_iff (List.cons_ne_nil v [])).1 htargets with
        ⟨-, rfl⟩ | ⟨hfull, -⟩
      · exact ht
      · rw [hempty] at hfull
        cases hfull
  | false =>
    -- each single value has its rows among those of the alternatives
    have hsingle : ∀ v ∈ vs, ∃ ps,
        r.positionsOfAll table (candidateRows (cands ++ [(n, [v])])) = .ok ps := by
      intro v hv
      obtain ⟨targets, htargets⟩ := h v hv
      rcases (routeAll_concat_eq_ok_iff (List.cons_ne_nil v [])).1 htargets with
        ⟨hall, -⟩ | ⟨-, ps, hps, -⟩
      · rw [hempty] at hall
        cases hall
      · exact ⟨ps, hps⟩
    have hmem : ∀ row, row ∈ candidateRows (cands ++ [(n, vs)]) ↔
        ∃ v ∈ vs, row ∈ candidateRows (cands ++ [(n, [v])]) := by
      intro row
      simp only [mem_candidateRows_concat_iff, List.mem_singleton, exists_eq_left]
      exact ⟨fun ⟨front, hfront, v, hv, hrow⟩ => ⟨v, hv, front, hfront, hrow⟩,
        fun ⟨v, hv, front, hfront, hrow⟩ => ⟨front, hfront, v, hv, hrow⟩⟩
    obtain ⟨ps, hps⟩ := exists_positionsOfAll fun row hrow => by
      obtain ⟨v, hv, hrow⟩ := (hmem row).1 hrow
      obtain ⟨qs, hqs⟩ := hsingle v hv
      exact (of_positionsOfAll hqs).1 row hrow
    refine ⟨_, (routeAll_concat_eq_ok_iff hvs).2 (Or.inr ⟨hempty, ps, hps, rfl⟩), fun target => ?_⟩
    rw [mem_targetsAt_contains_iff]
    constructor
    · rintro ⟨p, hp, part, hpart, rfl⟩
      obtain ⟨row, hrow, qs, hqs, hp⟩ := ((of_positionsOfAll hps).2 p).1 hp
      obtain ⟨v, hv, hrow⟩ := (hmem row).1 hrow
      obtain ⟨ps', hps'⟩ := hsingle v hv
      refine ⟨v, hv, _, (routeAll_concat_eq_ok_iff (List.cons_ne_nil v [])).2
        (Or.inr ⟨hempty, ps', hps', rfl⟩), mem_targetsAt_contains_iff.2 ⟨p, ?_, part, hpart, rfl⟩⟩
      exact ((of_positionsOfAll hps').2 p).2 ⟨row, hrow, qs, hqs, hp⟩
    · rintro ⟨v, hv, targets, htargets, ht⟩
      rcases (routeAll_concat_eq_ok_iff (List.cons_ne_nil v [])).1 htargets with
        ⟨hall, -⟩ | ⟨-, ps', hps', rfl⟩
      · rw [hempty] at hall
        cases hall
      obtain ⟨p, hp, part, hpart, rfl⟩ := mem_targetsAt_contains_iff.1 ht
      obtain ⟨row, hrow, qs, hqs, hp⟩ := ((of_positionsOfAll hps').2 p).1 hp
      exact ⟨p, ((of_positionsOfAll hps).2 p).2 ⟨row, (hmem row).2 ⟨v, hv, hrow⟩, qs, hqs, hp⟩,
        part, hpart, rfl⟩

/-! ### Values of one key -/

/-- Two values of a column that lead rows to the same parts, wherever both lead them to some. -/
def AgreeOn (r : Router) (column : String) (a b : Value) : Prop :=
  ∀ (row : Row) ps qs, r.positionsOf (row.insert column a) = .ok ps →
    r.positionsOf (row.insert column b) = .ok qs → ps = qs

/-- The parts of a row are those that its key chooses. -/
theorem positionsOf_of_positions {row : Row} {ps : List Nat}
    (h : r.positions table row = .ok ps) : r.positionsOf row = .ok ps := by
  rw [← positions_of_required (required_of_positions h) table, h]

/-- Where two values of a column agree, single values of them lead to the same targets. -/
theorem AgreeOn.mem_of_routeAll_concat {a b : Value}
    (h : r.AgreeOn (Identifier.normalize n) a b) {targets targets' : List Target}
    (ha : r.routeAll table (cands ++ [(n, [a])]) = .ok targets)
    (hb : r.routeAll table (cands ++ [(n, [b])]) = .ok targets') {target : Target}
    (ht : target ∈ targets') : target ∈ targets := by
  rcases (routeAll_concat_eq_ok_iff (List.cons_ne_nil b [])).1 hb with
    ⟨-, rfl⟩ | ⟨hfull, qs, hqs, rfl⟩
  · cases ht
  rcases (routeAll_concat_eq_ok_iff (List.cons_ne_nil a [])).1 ha with
    ⟨hempty, -⟩ | ⟨-, ps, hps, rfl⟩
  · rw [hfull] at hempty
    cases hempty
  obtain ⟨p, hp, part, hpart, rfl⟩ := mem_targetsAt_contains_iff.1 ht
  obtain ⟨row, hrow, qs', hqs', hp⟩ := ((of_positionsOfAll hqs).2 p).1 hp
  obtain ⟨front, hfront, v, hv, rfl⟩ := mem_candidateRows_concat_iff.1 hrow
  obtain rfl := List.mem_singleton.1 hv
  -- the same row with the other value goes to the same parts
  have hrow' : front.insert (Identifier.normalize n) a ∈ candidateRows (cands ++ [(n, [a])]) :=
    mem_candidateRows_concat_iff.2 ⟨front, hfront, a, List.mem_singleton_self a, rfl⟩
  obtain ⟨ps', hps'⟩ := (of_positionsOfAll hps).1 _ hrow'
  obtain rfl := h front ps' qs' (positionsOf_of_positions hps') (positionsOf_of_positions hqs')
  exact mem_targetsAt_contains_iff.2
    ⟨p, ((of_positionsOfAll hps).2 p).2 ⟨_, hrow', ps', hps', hp⟩, part, hpart, rfl⟩

end Router

/-- The integer of the first value that is there. -/
theorem KeyAlgorithm.firstInteger_eq_ok_iff {values : List Value} {i : Int64} :
    firstInteger values = .ok i ↔
      ∃ v, (values.find? fun v => !v.isNull) = some v ∧ v.integer? = some i := by
  unfold firstInteger firstValue
  cases hfind : values.find? fun v => !v.isNull with
  | none => exact ⟨nofun, fun ⟨_, h, _⟩ => nomatch h⟩
  | some v =>
    simp only [bind, Except.bind, Option.some.injEq, exists_eq_left']
    cases v.integer? <;> simp

namespace Rule

variable {r : Rule}

/-- A rule that looks at nothing but the integer of the first value that is there. -/
def ReadsInteger (r : Rule) : Prop :=
  ∃ run args, r.kind = .algorithm run args ∧
    (run = KeyAlgorithm.remainder ∨ run = KeyAlgorithm.range)

/-- The key of such a rule is made of that integer. -/
theorem ReadsInteger.exists_key_eq (h : r.ReadsInteger) (partitionCount : Nat) :
    ∃ f : Int64 → Except KeyFault Key, ∀ row : Row, r.key partitionCount row =
      KeyAlgorithm.firstInteger ((r.columns.map RuleColumn.name).map row.value) >>= f := by
  obtain ⟨run, args, hkind, hrun⟩ := h
  have hkey : ∀ row : Row, r.key partitionCount row =
      run partitionCount args ((r.columns.map RuleColumn.name).map row.value) := by
    intro row
    rw [key, hkind, List.map_map]
    rfl
  rcases hrun with rfl | rfl
  · exact ⟨_, hkey⟩
  · exact ⟨_, hkey⟩

end Rule

namespace Router

variable {r : Router}

/-- A row has parts if it has a key that chooses some. -/
theorem exists_key_of_positionsOf {row : Row} {ps : List Nat} (h : r.positionsOf row = .ok ps) :
    ∃ key, r.rule.key r.partition.length row = .ok key := by
  unfold positionsOf at h
  split at h
  · cases h
  · next key hkey => exact ⟨key, hkey⟩

/-- Values of one key agree where the rule reads integers. -/
theorem agreeOn_of_sameKey (hreads : r.rule.ReadsInteger) {a b : Value}
    (ha : a.isNull = false) (hb : b.isNull = false) (hkey : a.sameKey b) (column : String) :
    r.AgreeOn column a b := by
  intro row ps qs hps hqs
  obtain ⟨f, hf⟩ := hreads.exists_key_eq r.partition.length
  obtain ⟨ka, hka⟩ := exists_key_of_positionsOf hps
  obtain ⟨kb, hkb⟩ := exists_key_of_positionsOf hqs
  rw [hf] at hka hkb
  obtain ⟨i, hi, hka⟩ := bind_eq_ok_iff.1 hka
  obtain ⟨j, hj, hkb⟩ := bind_eq_ok_iff.1 hkb
  obtain ⟨v, hv, hvi⟩ := KeyAlgorithm.firstInteger_eq_ok_iff.1 hi
  obtain ⟨w, hw, hwj⟩ := KeyAlgorithm.firstInteger_eq_ok_iff.1 hj
  -- the first value is the same in both rows, or it is the one that differs
  have hij : i = j := by
    rcases find?_insert row column (ha.trans hb.symm) (r.rule.columns.map RuleColumn.name) with
      hsame | ⟨hfirst, hfirst'⟩
    · rw [hv, hw] at hsame
      cases hsame
      exact Option.some.inj (hvi.symm.trans hwj)
    · cases hfirst.symm.trans hv
      cases hfirst'.symm.trans hw
      rw [Value.sameKey, hvi, hwj] at hkey
      exact eq_of_beq hkey
  subst hij
  have hkeys : r.rule.key r.partition.length (row.insert column a) =
      r.rule.key r.partition.length (row.insert column b) := by
    rw [hf, hf, hi, hj]
  rw [positionsOf, hkeys, ← positionsOf, hqs] at hps
  exact (Except.ok.inj hps).symm

end Router

/-! ### Conditions with alternatives -/

namespace Catalog

variable {c : Catalog} {table : String} {t : Table} {r : Router} {rule : Rule}
  {conditions : List Condition} {column : String} {restriction : Restriction} {values : List Value}

/-- The values of a condition that are routed: without the absent one and without repetitions. -/
def kept (values : List Value) : List Value :=
  distinctKeys (values.filter fun v => !v.isNull)

/-- A value that is kept was listed and is there. -/
theorem of_mem_kept {v : Value} (h : v ∈ kept values) : v ∈ values ∧ v.isNull = false := by
  obtain ⟨hv, hnull⟩ := List.mem_filter.1 ((distinctKeys_sublist _).subset h)
  exact ⟨hv, by simpa using hnull⟩

/-- A value that is listed and there has the key of one that is kept. -/
theorem exists_kept_of_mem {v : Value} (h : v ∈ values) (hnull : v.isNull = false) :
    ∃ k ∈ kept values, k.sameKey v :=
  exists_sameKey_of_mem (List.mem_filter.2 ⟨h, by rw [hnull]; rfl⟩)

/-- A last condition on another column than the rule's adds no candidates. -/
theorem pinAll_concat_of_not_isColumn (h : ¬ rule.isColumn (Identifier.normalize column)) :
    pinAll rule (conditions ++ [⟨column, restriction⟩]) = pinAll rule conditions := by
  rw [pinAll, List.foldl_append, List.foldl_cons, List.foldl_nil, pinCondition]
  exact if_neg h

/-- A last condition on a new rule column adds the candidates of that column at the end. -/
theorem pinAll_concat_of_isColumn (h : rule.isColumn (Identifier.normalize column))
    (hlisted : listedValues? restriction = some values)
    (hfree : ∀ cond ∈ conditions,
      Identifier.normalize cond.column ≠ Identifier.normalize column) :
    pinAll rule (conditions ++ [⟨column, restriction⟩]) =
      pinAll rule conditions ++ [(Identifier.normalize column, kept values)] := by
  have hnew : ¬ ((pinAll rule conditions).any fun e => e.1 == Identifier.normalize column) := by
    intro hany
    obtain ⟨e, he, hname⟩ := List.any_eq_true.1 hany
    obtain ⟨cond, hcond, -, -, hcolumn⟩ :=
      mem_map_fst_pinAll_iff.1 (List.mem_map_of_mem (f := Prod.fst) he)
    exact hfree cond hcond (hcolumn.trans (eq_of_beq hname))
  rw [pinAll, List.foldl_append, List.foldl_cons, List.foldl_nil, pinCondition, ← pinAll]
  simp only [h, hlisted, if_true]
  rw [pin, if_neg hnew]
  rfl

/-- A last condition on a new rule column is routed by the values of it that are kept. -/
theorem routeConditions_concat (hfind : c.find table = .ok t) (hrouted : t.placement = .routed r)
    (hcolumn : r.rule.isColumn (Identifier.normalize column))
    (hlisted : listedValues? restriction = some values)
    (hfree : ∀ cond ∈ conditions,
      Identifier.normalize cond.column ≠ Identifier.normalize column) :
    c.routeConditions table (conditions ++ [⟨column, restriction⟩]) =
      if ∀ col ∈ r.rule.requiredColumns, col.name ∈
          (pinAll r.rule conditions).map Prod.fst ++ [Identifier.normalize column] then
        r.routeAll t.name (pinAll r.rule conditions ++ [(Identifier.normalize column, kept values)])
          >>= fun targets => .ok { targets }
      else .ok { targets := r.allTargets t.name, fullScan := true } := by
  rw [routeConditions_routed hfind hrouted, pinAll_concat_of_isColumn hcolumn hlisted hfree,
    List.map_append]
  rfl

/-- The one value of an equality is kept if it is there. -/
theorem kept_singleton {v : Value} (h : v.isNull = false) : kept [v] = [v] := by
  simp [kept, h]

/-- Alternatives for a column lead to the targets of the equalities for the values that are kept, if
each of these equalities leads to some. -/
theorem exists_routeConditions_oneOf (hfind : c.find table = .ok t)
    (hrouted : t.placement = .routed r)
    (hfree : ∀ cond ∈ conditions,
      Identifier.normalize cond.column ≠ Identifier.normalize column)
    (hsome : ∃ v ∈ values, v.isNull = false)
    (hequals : ∀ v ∈ kept values, ∃ route,
      c.routeConditions table (conditions ++ [⟨column, .equals v⟩]) = .ok route) :
    ∃ found, c.routeConditions table (conditions ++ [⟨column, .oneOf values⟩]) = .ok found ∧
      ∀ target, target ∈ found.targets ↔ ∃ v ∈ kept values, ∃ route,
        c.routeConditions table (conditions ++ [⟨column, .equals v⟩]) = .ok route ∧
          target ∈ route.targets := by
  obtain ⟨v, hv, hnull⟩ := hsome
  obtain ⟨k, hk, -⟩ := exists_kept_of_mem hv hnull
  by_cases hcolumn : r.rule.isColumn (Identifier.normalize column)
  · have hone : ∀ v ∈ kept values, c.routeConditions table (conditions ++ [⟨column, .equals v⟩]) =
        if ∀ col ∈ r.rule.requiredColumns, col.name ∈
            (pinAll r.rule conditions).map Prod.fst ++ [Identifier.normalize column] then
          r.routeAll t.name (pinAll r.rule conditions ++ [(Identifier.normalize column, [v])])
            >>= fun targets => .ok { targets }
        else .ok { targets := r.allTargets t.name, fullScan := true } := by
      intro v hv
      rw [routeConditions_concat hfind hrouted hcolumn rfl hfree,
        kept_singleton (of_mem_kept hv).2]
    rw [routeConditions_concat hfind hrouted hcolumn rfl hfree]
    split
    · next hrequired =>
      have hsingle : ∀ v ∈ kept values, ∃ targets, r.routeAll t.name
          (pinAll r.rule conditions ++ [(Identifier.normalize column, [v])]) = .ok targets := by
        intro v hv
        obtain ⟨route, hroute⟩ := hequals v hv
        rw [hone v hv, if_pos hrequired] at hroute
        obtain ⟨targets, htargets, -⟩ := bind_eq_ok_iff.1 hroute
        exact ⟨targets, htargets⟩
      obtain ⟨found, hfound, hmem⟩ :=
        Router.exists_routeAll_concat (List.ne_nil_of_mem hk) hsingle
      refine ⟨{ targets := found }, by rw [hfound]; rfl, fun target => (hmem target).trans ?_⟩
      constructor
      · rintro ⟨v, hv, targets, htargets, ht⟩
        exact ⟨v, hv, { targets }, by rw [hone v hv, if_pos hrequired, htargets]; rfl, ht⟩
      · rintro ⟨v, hv, route, hroute, ht⟩
        rw [hone v hv, if_pos hrequired] at hroute
        obtain ⟨targets, htargets, hroute⟩ := bind_eq_ok_iff.1 hroute
        cases hroute
        exact ⟨v, hv, targets, htargets, ht⟩
    · next hrequired =>
      refine ⟨_, rfl, fun target => ⟨fun ht => ⟨k, hk, _, ?_, ht⟩, ?_⟩⟩
      · rw [hone k hk, if_neg hrequired]
      · rintro ⟨v, hv, route, hroute, ht⟩
        rw [hone v hv, if_neg hrequired] at hroute
        cases hroute
        exact ht
  · -- no condition on the column counts
    have hsame : ∀ restriction, c.routeConditions table (conditions ++ [⟨column, restriction⟩]) =
        c.routeConditions table conditions := by
      intro restriction
      rw [routeConditions_routed hfind hrouted, routeConditions_routed hfind hrouted,
        pinAll_concat_of_not_isColumn hcolumn]
    simp only [hsame] at hequals ⊢
    obtain ⟨route, hroute⟩ := hequals k hk
    refine ⟨route, hroute, fun target => ⟨fun ht => ⟨k, hk, route, hroute, ht⟩, ?_⟩⟩
    rintro ⟨-, -, route', hroute', ht⟩
    rw [hroute] at hroute'
    cases hroute'
    exact ht

/-- Equalities for values that agree lead to the same targets. -/
theorem mem_of_agreeOn (hfind : c.find table = .ok t) (hrouted : t.placement = .routed r)
    (hfree : ∀ cond ∈ conditions,
      Identifier.normalize cond.column ≠ Identifier.normalize column)
    {a b : Value} (ha : a.isNull = false) (hb : b.isNull = false)
    (hagree : r.AgreeOn (Identifier.normalize (Identifier.normalize column)) a b)
    {route route' : Route}
    (hroute : c.routeConditions table (conditions ++ [⟨column, .equals a⟩]) = .ok route)
    (hroute' : c.routeConditions table (conditions ++ [⟨column, .equals b⟩]) = .ok route')
    {target : Target} (ht : target ∈ route'.targets) : target ∈ route.targets := by
  by_cases hcolumn : r.rule.isColumn (Identifier.normalize column)
  · rw [routeConditions_concat hfind hrouted hcolumn rfl hfree, kept_singleton ha] at hroute
    rw [routeConditions_concat hfind hrouted hcolumn rfl hfree, kept_singleton hb] at hroute'
    split at hroute
    · next hrequired =>
      rw [if_pos hrequired] at hroute'
      obtain ⟨targets, htargets, hroute⟩ := bind_eq_ok_iff.1 hroute
      obtain ⟨targets', htargets', hroute'⟩ := bind_eq_ok_iff.1 hroute'
      cases hroute
      cases hroute'
      exact hagree.mem_of_routeAll_concat htargets htargets' ht
    · next hrequired =>
      rw [if_neg hrequired] at hroute'
      cases hroute
      cases hroute'
      exact ht
  · rw [routeConditions_routed hfind hrouted,
      pinAll_concat_of_not_isColumn hcolumn] at hroute hroute'
    rw [hroute] at hroute'
    cases hroute'
    exact ht

/-- Alternatives for a column, at least one of which is there, lead to the targets of the equalities
for the values that are kept. If all their equalities lead somewhere and those of one key agree,
they lead to the targets of all of them; and where the rule reads integers, values of one key do
agree. -/
theorem routeConditions_oneOf (hfind : c.find table = .ok t) (hrouted : t.placement = .routed r) :
    (∀ conditions column values,
      (∀ cond ∈ conditions, Identifier.normalize cond.column ≠ Identifier.normalize column) →
      (∃ v ∈ values, v.isNull = false) →
      (∀ v ∈ values, v.isNull = false → ∃ route,
        c.routeConditions table (conditions ++ [⟨column, .equals v⟩]) = .ok route) →
      ∃ found, c.routeConditions table (conditions ++ [⟨column, .oneOf values⟩]) = .ok found ∧
        (∀ target, target ∈ found.targets ↔ ∃ v ∈ kept values, ∃ route,
          c.routeConditions table (conditions ++ [⟨column, .equals v⟩]) = .ok route ∧
            target ∈ route.targets) ∧
        ((∀ a ∈ values, ∀ b ∈ values, a.isNull = false → b.isNull = false → a.sameKey b →
            r.AgreeOn (Identifier.normalize (Identifier.normalize column)) a b) →
          ∀ target, target ∈ found.targets ↔ ∃ v ∈ values, v.isNull = false ∧ ∃ route,
            c.routeConditions table (conditions ++ [⟨column, .equals v⟩]) = .ok route ∧
              target ∈ route.targets)) ∧
    (r.rule.ReadsInteger → ∀ column a b, a.isNull = false → b.isNull = false → a.sameKey b →
      r.AgreeOn column a b) := by
  constructor
  · intro conditions column values hfree hsome hequals
    have hkept : ∀ v ∈ kept values, ∃ route,
        c.routeConditions table (conditions ++ [⟨column, .equals v⟩]) = .ok route :=
      fun v hv => hequals v (of_mem_kept hv).1 (of_mem_kept hv).2
    obtain ⟨found, hfound, hmem⟩ := exists_routeConditions_oneOf hfind hrouted hfree hsome hkept
    refine ⟨found, hfound, hmem, fun hagree target => (hmem target).trans ?_⟩
    constructor
    · rintro ⟨v, hv, hroute⟩
      exact ⟨v, (of_mem_kept hv).1, (of_mem_kept hv).2, hroute⟩
    · rintro ⟨v, hv, hnull, route, hroute, ht⟩
      obtain ⟨k, hk, hkey⟩ := exists_kept_of_mem hv hnull
      obtain ⟨hkv, hknull⟩ := of_mem_kept hk
      obtain ⟨route', hroute'⟩ := hkept k hk
      exact ⟨k, hk, route', hroute', mem_of_agreeOn hfind hrouted hfree hknull hnull
        (hagree k hkv v hv hknull hnull hkey) hroute' hroute ht⟩
  · exact fun hreads column a b ha hb hkey => Router.agreeOn_of_sameKey hreads ha hb hkey column

/-- Alternatives for the user of an order: two numbers, one of them also as a text, and no value. -/
def userAlternatives : List Value :=
  [.int 4, .text "5", .int 5, .null]

/-- A remainder sends a number and its text to one place, so the alternatives lead to the targets of
all their equalities. -/
theorem routeConditions_oneOf_users :
    ∃ found, tenantCatalog.routeConditions "orders"
        ([⟨"amount", .equals (.int 3)⟩] ++ [⟨"user_id", .oneOf userAlternatives⟩]) = .ok found ∧
      ∀ target, target ∈ found.targets ↔ ∃ v ∈ userAlternatives, v.isNull = false ∧ ∃ route,
        tenantCatalog.routeConditions "orders"
          ([⟨"amount", .equals (.int 3)⟩] ++ [⟨"user_id", .equals v⟩]) = .ok route ∧
            target ∈ route.targets := by
  have hfind : tenantCatalog.find "orders" = .ok ⟨"orders", .routed tenantRouter⟩ := by rfl
  obtain ⟨halternatives, hagree⟩ := routeConditions_oneOf hfind rfl
  have hequals : ∀ v ∈ userAlternatives, v.isNull = false → ∃ route,
      tenantCatalog.routeConditions "orders"
        ([⟨"amount", .equals (.int 3)⟩] ++ [⟨"user_id", .equals v⟩]) = .ok route := by
    intro v hv hnull
    simp only [userAlternatives, List.mem_cons, List.not_mem_nil, or_false] at hv
    obtain rfl | rfl | rfl | rfl := hv
    · exact ⟨{ targets := [⟨"s0", "orders", ""⟩] }, by decide +kernel⟩
    · exact ⟨{ targets := [⟨"s1", "orders", ""⟩] }, by decide +kernel⟩
    · exact ⟨{ targets := [⟨"s1", "orders", ""⟩] }, by decide +kernel⟩
    · cases hnull
  obtain ⟨found, hfound, -, hmem⟩ := halternatives [⟨"amount", .equals (.int 3)⟩] "user_id"
    userAlternatives (by decide +kernel) ⟨.int 4, List.mem_cons_self, rfl⟩ hequals
  refine ⟨found, hfound, hmem fun a _ b _ ha hb hkey => ?_⟩
  exact hagree ⟨_, _, rfl, Or.inl rfl⟩ _ a b ha hb hkey

/-- A number and its text are one key, of which the first alone is routed, but their bytes lead to
different places. -/
theorem not_routeConditions_oneOf :
    ¬ ∀ (s : Settings) (c : Catalog) (table : String) (t : Table) (r : Router)
      (conditions : List Condition) (column : String) (values : List Value) (found : Route),
      build Registry.builtin s = .ok c → c.find table = .ok t → t.placement = .routed r →
        r.rule.isColumn column →
        (∀ cond ∈ conditions, Identifier.normalize cond.column ≠ Identifier.normalize column) →
        (∃ v ∈ values, v.isNull = false) →
        (∀ v ∈ values, v.isNull = false → ∃ route,
          c.routeConditions table (conditions ++ [⟨column, .equals v⟩]) = .ok route) →
        c.routeConditions table (conditions ++ [⟨column, .oneOf values⟩]) = .ok found →
          ∀ target, target ∈ found.targets ↔ ∃ v ∈ values, v.isNull = false ∧ ∃ route,
            c.routeConditions table (conditions ++ [⟨column, .equals v⟩]) = .ok route ∧
              target ∈ route.targets := by
  intro h
  have htext : bytesCatalog.routeConditions "orders" ([] ++ [⟨"user_id", .equals (.text "5")⟩]) =
      .ok { targets := [⟨"s1", "orders", ""⟩] } := by decide +kernel
  have hequals : ∀ v ∈ ([.int 5, .text "5"] : List Value), v.isNull = false → ∃ route,
      bytesCatalog.routeConditions "orders" ([] ++ [⟨"user_id", .equals v⟩]) = .ok route := by
    intro v hv _
    simp only [List.mem_cons, List.not_mem_nil, or_false] at hv
    obtain rfl | rfl := hv
    · exact ⟨{ targets := [⟨"s0", "orders", ""⟩] }, by decide +kernel⟩
    · exact ⟨_, htext⟩
  have hunion := h bytesSettings bytesCatalog "orders" ⟨"orders", .routed bytesRouter⟩ bytesRouter
    [] "user_id" [.int 5, .text "5"] { targets := [⟨"s0", "orders", ""⟩] } (by cbv) rfl rfl
    (by decide +kernel) nofun ⟨.int 5, List.mem_cons_self, rfl⟩ hequals (by decide +kernel)
  have hmissed := (hunion ⟨"s1", "orders", ""⟩).2
    ⟨.text "5", by simp, rfl, _, htext, List.mem_singleton_self _⟩
  exact absurd hmissed (by decide +kernel)

end Catalog

end ShardRouting
