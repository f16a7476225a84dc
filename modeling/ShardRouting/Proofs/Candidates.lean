import Mathlib.Data.List.Induction
import Mathlib.Data.List.Nodup
import ShardRouting.Proofs.Outcome
import ShardRouting.Proofs.Reads
import ShardRouting.Proofs.Representatives

/-!
# Candidate values

How the conditions of a statement become candidate values of columns, and how these become rows. A
condition lists values for one column; of several conditions on a column the first one's values are
kept as far as the others list them too. A candidate row takes one value for each column.

* `Catalog.listed?`, `Catalog.pinEntries`: the candidate values as a fold over what is listed.
* `Catalog.exists_first_of_mem_pinEntries`: which values are left for a column.
* `Catalog.routeConditions_routed`: what becomes of the candidates.
* `Router.candidateRows`: the rows that are routed for candidate values.
* `Router.routeAll_toOption_congr`: candidate rows that match each other lead to the same tables.
-/

namespace ShardRouting

namespace Catalog

/-- What a condition tells a rule: the compared form of its column, and the values that are listed
for it, without the absent one and without repetitions. -/
def listed? (rule : Rule) (cond : Condition) : Option (String × List Value) :=
  if rule.isColumn (Identifier.normalize cond.column) then
    (listedValues? cond.restriction).map fun values =>
      (Identifier.normalize cond.column, distinctKeys (values.filter fun v => !v.isNull))
  else none

/-- The candidate values of columns under several listings. -/
def pinEntries (entries : List (String × List Value)) : List (String × List Value) :=
  entries.foldl (fun pinned e => pin pinned e.1 e.2) []

theorem pinCondition_eq (rule : Rule) (pinned : List (String × List Value)) (cond : Condition) :
    pinCondition rule pinned cond =
      match listed? rule cond with
      | some e => pin pinned e.1 e.2
      | none => pinned := by
  unfold pinCondition listed?
  simp only
  split
  · cases listedValues? cond.restriction <;> rfl
  · rfl

/-- Only what conditions list counts. -/
theorem pinAll_eq (rule : Rule) (conditions : List Condition) :
    pinAll rule conditions = pinEntries (conditions.filterMap (listed? rule)) := by
  unfold pinAll pinEntries
  rw [List.foldl_filterMap]
  congr 1
  funext pinned cond
  rw [pinCondition_eq]
  cases listed? rule cond <;> rfl

theorem pinEntries_concat (entries : List (String × List Value)) (e : String × List Value) :
    pinEntries (entries ++ [e]) = pin (pinEntries entries) e.1 e.2 := by
  rw [pinEntries, List.foldl_append]
  rfl

/-! ### The columns that have candidates -/

/-- A listing adds its column at the end where it is new. -/
theorem map_fst_pin (pinned : List (String × List Value)) (column : String) (values : List Value) :
    (pin pinned column values).map Prod.fst =
      if column ∈ pinned.map Prod.fst then pinned.map Prod.fst
      else pinned.map Prod.fst ++ [column] := by
  have hmem : (pinned.any fun entry => entry.1 == column) = true ↔
      column ∈ pinned.map Prod.fst := by
    simp only [List.any_eq_true, beq_iff_eq, List.mem_map]
  unfold pin
  by_cases h : column ∈ pinned.map Prod.fst
  · rw [if_pos (hmem.2 h), if_pos h, List.map_map]
    refine List.map_congr_left fun entry _ => ?_
    simp only [Function.comp_apply]
    split <;> rfl
  · rw [if_neg (fun ha => h (hmem.1 ha)), if_neg h, List.map_append]
    rfl

/-- The columns with candidates are those that something is listed for. -/
theorem mem_map_fst_pinEntries {entries : List (String × List Value)} {n : String} :
    n ∈ (pinEntries entries).map Prod.fst ↔ n ∈ entries.map Prod.fst := by
  induction entries using List.reverseRecOn with
  | nil => rfl
  | append_singleton entries e ih =>
    rw [pinEntries_concat, map_fst_pin, List.map_append]
    simp only [List.map_cons, List.map_nil, List.mem_append, List.mem_singleton]
    split
    · next h =>
      rw [← ih]
      exact ⟨Or.inl, fun hn => hn.elim id fun he => he ▸ h⟩
    · rw [List.mem_append, List.mem_singleton, ih]

/-- No column has candidates twice. -/
theorem nodup_map_fst_pinEntries (entries : List (String × List Value)) :
    ((pinEntries entries).map Prod.fst).Nodup := by
  induction entries using List.reverseRecOn with
  | nil => exact List.nodup_nil
  | append_singleton entries e ih =>
    rw [pinEntries_concat, map_fst_pin]
    split
    · exact ih
    · next h =>
      rw [← List.concat_eq_append]
      exact (List.nodup_concat _ _).2 ⟨h, ih⟩

/-! ### The values that are left -/

/-- What holds of each listing for a column holds of those before the last one, and of the last one
if it is for that column. -/
theorem forall_listed_concat {entries : List (String × List Value)} {e : String × List Value}
    {n : String} {P : String × List Value → Prop} :
    (∀ e' ∈ entries ++ [e], e'.1 = n → P e') ↔
      (∀ e' ∈ entries, e'.1 = n → P e') ∧ (e.1 = n → P e) := by
  rw [List.forall_mem_append, List.forall_mem_singleton]

/-- The candidates of a column are the values of one listing, as far as every listing for the column
has a value of the same key. -/
theorem exists_first_of_mem_pinEntries {entries : List (String × List Value)} {n : String}
    {vs : List Value} (h : (n, vs) ∈ pinEntries entries) :
    ∃ first ∈ entries, first.1 = n ∧ ∀ v, v ∈ vs ↔
      v ∈ first.2 ∧ ∀ e ∈ entries, e.1 = n → ∃ x ∈ e.2, x.sameKey v := by
  induction entries using List.reverseRecOn generalizing vs with
  | nil => cases h
  | append_singleton entries e ih =>
    -- the last listing is for another column, or for one with candidates, or for a new one
    have hother : (n, vs) ∈ pinEntries entries → e.1 ≠ n →
        ∃ first ∈ entries ++ [e], first.1 = n ∧ ∀ v, v ∈ vs ↔
          v ∈ first.2 ∧ ∀ e' ∈ entries ++ [e], e'.1 = n → ∃ x ∈ e'.2, x.sameKey v := by
      intro hm hne
      obtain ⟨first, hfirst, hname, hvs⟩ := ih hm
      refine ⟨first, List.mem_append_left _ hfirst, hname, fun v => ?_⟩
      rw [hvs, forall_listed_concat, and_iff_left fun hn => absurd hn hne]
    rw [pinEntries_concat, pin] at h
    split at h
    · obtain ⟨⟨m, ws⟩, hm, he⟩ := List.mem_map.1 h
      simp only at he
      split at he
      · next hmn =>
        rw [beq_iff_eq] at hmn
        cases he
        obtain ⟨first, hfirst, hname, hvs⟩ := ih hm
        refine ⟨first, List.mem_append_left _ hfirst, hname, fun v => ?_⟩
        rw [List.mem_filter, hvs, forall_listed_concat, forall_prop_of_true hmn.symm, and_assoc,
          List.any_eq_true]
      · next hmn =>
        rw [beq_iff_eq] at hmn
        cases he
        exact hother hm (Ne.symm hmn)
    · next hnew =>
      have habsent : ∀ e' ∈ entries, e'.1 ≠ e.1 := by
        intro e' he' hn
        obtain ⟨p, hp, hpn⟩ := List.mem_map.1
          (mem_map_fst_pinEntries.2 (List.mem_map_of_mem (f := Prod.fst) he'))
        exact hnew (List.any_eq_true.2 ⟨p, hp, by rw [beq_iff_eq, hpn, hn]⟩)
      rcases List.mem_append.1 h with h | h
      · obtain ⟨first, hfirst, hname, -⟩ := ih h
        exact hother h fun hn => habsent first hfirst (hname.trans hn.symm)
      · cases List.mem_singleton.1 h
        refine ⟨e, by simp, rfl, fun v => ?_⟩
        rw [forall_listed_concat]
        refine ⟨fun hv => ⟨hv, fun e' he' hn => absurd hn (habsent e' he'), fun _ =>
          ⟨v, hv, Value.sameKey_self v⟩⟩, And.left⟩

/-- What a condition tells a rule was written in it. -/
theorem listed?_eq_some_iff {rule : Rule} {cond : Condition} {e : String × List Value} :
    listed? rule cond = some e ↔ rule.isColumn (Identifier.normalize cond.column) ∧
      ∃ values, listedValues? cond.restriction = some values ∧
        e = (Identifier.normalize cond.column,
          distinctKeys (values.filter fun v => !v.isNull)) := by
  unfold listed?
  split
  · next h =>
    rw [Option.map_eq_some_iff]
    exact ⟨fun ⟨vs, hvs, he⟩ => ⟨h, vs, hvs, he.symm⟩, fun ⟨_, vs, hvs, he⟩ => ⟨vs, hvs, he.symm⟩⟩
  · next h => simp [h]

/-- The columns with candidates are the rule columns, as conditions name them, for which a condition
lists values. -/
theorem mem_map_fst_pinAll_iff {rule : Rule} {conditions : List Condition} {n : String} :
    n ∈ (pinAll rule conditions).map Prod.fst ↔ ∃ cond ∈ conditions,
      rule.isColumn (Identifier.normalize cond.column) ∧ (listedValues? cond.restriction).isSome ∧
        Identifier.normalize cond.column = n := by
  rw [pinAll_eq, mem_map_fst_pinEntries]
  simp only [List.mem_map, List.mem_filterMap]
  constructor
  · rintro ⟨e, ⟨cond, hcond, he⟩, rfl⟩
    obtain ⟨hcolumn, values, hvalues, rfl⟩ := listed?_eq_some_iff.1 he
    exact ⟨cond, hcond, hcolumn, Option.isSome_of_eq_some hvalues, rfl⟩
  · rintro ⟨cond, hcond, hcolumn, hlisted, rfl⟩
    obtain ⟨values, hvalues⟩ := Option.isSome_iff_exists.1 hlisted
    exact ⟨_, ⟨cond, hcond, listed?_eq_some_iff.2 ⟨hcolumn, values, hvalues, rfl⟩⟩, rfl⟩

/-- For a routed table the candidates are routed if each column that needs a value has some, and
else all physical tables are taken. -/
theorem routeConditions_routed {c : Catalog} {table : String} {t : Table} {r : Router}
    (hfind : c.find table = .ok t) (hrouted : t.placement = .routed r)
    (conditions : List Condition) :
    c.routeConditions table conditions =
      if ∀ col ∈ r.rule.requiredColumns, col.name ∈ (pinAll r.rule conditions).map Prod.fst then
        r.routeAll t.name (pinAll r.rule conditions) >>= fun targets => .ok { targets }
      else .ok { targets := r.allTargets t.name, fullScan := true } := by
  have hunpinned : (r.rule.requiredColumns.any fun column =>
      !(pinAll r.rule conditions).any fun entry => entry.1 == column.name) = true ↔
      ¬ ∀ col ∈ r.rule.requiredColumns, col.name ∈ (pinAll r.rule conditions).map Prod.fst := by
    simp only [List.any_eq_true, Bool.not_eq_true', List.any_eq_false, beq_iff_eq, List.mem_map]
    push Not
    rfl
  rw [routeConditions, hfind]
  simp only [bind, Except.bind, hrouted, hunpinned, Table.allTargets, ite_not]

/-- Of a table that no router spreads, rows and conditions have the same targets. -/
theorem routeConditions_eq_routeRow {c : Catalog} {table : String} {t : Table}
    (hfind : c.find table = .ok t) (hplacement : ∀ r, t.placement ≠ .routed r)
    (conditions : List Condition) (row : Row) :
    c.routeConditions table conditions = c.routeRow table row := by
  rw [routeConditions, routeRow, hfind]
  simp only [bind, Except.bind]
  cases hp : t.placement with
  | whole shard => rfl
  | copied shards => rfl
  | routed r => exact absurd hp (hplacement r)

/-- Where all columns that need a value have candidates, there are some, or no column needs one. -/
theorem requiredColumns_eq_nil {rule : Rule} {cands : List (String × List Value)}
    (h : ∀ col ∈ rule.requiredColumns, col.name ∈ cands.map Prod.fst) (hnil : cands = []) :
    rule.requiredColumns = [] := by
  rw [hnil] at h
  exact List.eq_nil_iff_forall_not_mem.2 fun col hcol => nomatch h col hcol

end Catalog

/-! ### Candidate rows -/

namespace Row

/-- A row made of bindings binds values that are among them. -/
theorem mem_of_get?_rowOf {bindings : List (String × Value)} {n : String} {v : Value}
    (h : (Router.rowOf bindings).get? n = some v) : (n, v) ∈ bindings := by
  unfold Router.rowOf at h
  induction bindings using List.reverseRecOn with
  | nil => cases h
  | append_singleton bindings b ih =>
    rw [List.foldl_append, List.foldl_cons, List.foldl_nil, get?_insert] at h
    split at h
    · next hn =>
      cases h
      rw [hn]
      exact List.mem_append_right _ (List.mem_singleton_self _)
    · exact List.mem_append_left _ (ih h)

/-- A row made of bindings binds the columns that they are for. -/
theorem isSome_get?_rowOf_iff {bindings : List (String × Value)} {n : String} :
    ((Router.rowOf bindings).get? n).isSome ↔ n ∈ bindings.map Prod.fst := by
  unfold Router.rowOf
  induction bindings using List.reverseRecOn with
  | nil => simp [get?]
  | append_singleton bindings b ih =>
    rw [List.foldl_append, List.foldl_cons, List.foldl_nil, get?_insert, List.map_append,
      List.mem_append, List.map_singleton, List.mem_singleton, ← ih]
    split
    · next hn => simp [hn]
    · next hn => simp [hn]

end Row

namespace Router

variable {r : Router} {table : String} {cands cands' : List (String × List Value)} {row : Row}

/-- Candidate values under the names that rows bind. -/
def named (cands : List (String × List Value)) : List (String × List Value) :=
  cands.map fun c => (Identifier.normalize c.1, c.2)

/-- Rows bind the names of candidates themselves where these stay as they are when they are compared
once more. -/
theorem named_eq_iff :
    named cands = cands ↔ ∀ n ∈ cands.map Prod.fst, Identifier.normalize n = n := by
  have hid : named cands = cands ↔ named cands = cands.map fun c => c := by rw [List.map_id']
  rw [hid, named, List.map_inj_left, List.forall_mem_map]
  exact forall₂_congr fun c _ => by simp [Prod.ext_iff]

/-- The rows that are routed for candidate values. -/
def candidateRows (cands : List (String × List Value)) : List Row :=
  (combinations (named cands)).map rowOf

/-- A combination has one candidate value for each name. -/
theorem of_mem_combinations {bindings : List (String × Value)} (h : bindings ∈ combinations cands) :
    bindings.map Prod.fst = cands.map Prod.fst ∧
      ∀ b ∈ bindings, ∃ vs, (b.1, vs) ∈ cands ∧ b.2 ∈ vs := by
  induction cands generalizing bindings with
  | nil =>
    obtain rfl := List.mem_singleton.1 h
    exact ⟨rfl, nofun⟩
  | cons c cands ih =>
    obtain ⟨v, hv, h⟩ := List.mem_flatMap.1 h
    obtain ⟨rest, hrest, rfl⟩ := List.mem_map.1 h
    obtain ⟨hnames, hvalues⟩ := ih hrest
    refine ⟨by rw [List.map_cons, List.map_cons, hnames], fun b hb => ?_⟩
    rcases List.mem_cons.1 hb with rfl | hb
    · exact ⟨c.2, List.mem_cons_self, hv⟩
    · obtain ⟨vs, hvs, hb⟩ := hvalues b hb
      exact ⟨vs, List.mem_cons_of_mem _ hvs, hb⟩

/-- Every choice of a candidate value for each name is a combination. -/
theorem mem_combinations_of_choice {choice : String × List Value → Value}
    (h : ∀ c ∈ cands, choice c ∈ c.2) :
    (cands.map fun c => (c.1, choice c)) ∈ combinations cands := by
  induction cands with
  | nil => exact List.mem_singleton_self _
  | cons c cands ih =>
    exact List.mem_flatMap.2 ⟨choice c, h c List.mem_cons_self, List.mem_map_of_mem
      (ih fun c' hc' => h c' (List.mem_cons_of_mem _ hc'))⟩

/-- What a candidate row binds is a candidate value. -/
theorem exists_candidate_of_get? (h : row ∈ candidateRows cands) {n : String} {v : Value}
    (hv : row.get? n = some v) : ∃ vs, (n, vs) ∈ named cands ∧ v ∈ vs := by
  obtain ⟨bindings, hb, rfl⟩ := List.mem_map.1 h
  exact (of_mem_combinations hb).2 _ (Row.mem_of_get?_rowOf hv)

/-- A candidate row binds the columns that have candidates. -/
theorem isSome_get?_iff_of_mem_candidateRows (h : row ∈ candidateRows cands) {n : String} :
    (row.get? n).isSome ↔ n ∈ (named cands).map Prod.fst := by
  obtain ⟨bindings, hb, rfl⟩ := List.mem_map.1 h
  rw [Row.isSome_get?_rowOf_iff, (of_mem_combinations hb).1]

/-- Every choice of a candidate value for each column is what some candidate row binds. -/
theorem exists_candidateRow {choice : String × List Value → Value}
    (h : ∀ c ∈ named cands, choice c ∈ c.2) :
    ∃ row ∈ candidateRows cands, ∀ n v, row.get? n = some v →
      ∃ c ∈ named cands, c.1 = n ∧ choice c = v := by
  refine ⟨_, List.mem_map_of_mem (mem_combinations_of_choice h), fun n v hv => ?_⟩
  obtain ⟨c, hc, he⟩ := List.mem_map.1 (Row.mem_of_get?_rowOf hv)
  cases he
  exact ⟨c, hc, rfl, rfl⟩

/-! ### Where candidate rows go -/

/-- Several rows have places where each of them has some. -/
theorem exists_positionsOfAll {rows : List Row}
    (h : ∀ row ∈ rows, ∃ ps, r.positions table row = .ok ps) :
    ∃ ps, r.positionsOfAll table rows = .ok ps := by
  induction rows with
  | nil => exact ⟨[], rfl⟩
  | cons row rows ih =>
    obtain ⟨first, hfirst⟩ := h row List.mem_cons_self
    obtain ⟨more, hmore⟩ := ih fun row' hrow' => h row' (List.mem_cons_of_mem _ hrow')
    refine ⟨first ++ more, ?_⟩
    rw [positionsOfAll, hfirst, hmore]
    rfl

/-- The places of several rows are those of each of them, which all have some. -/
theorem of_positionsOfAll {rows : List Row} {ps : List Nat}
    (h : r.positionsOfAll table rows = .ok ps) :
    (∀ row ∈ rows, ∃ qs, r.positions table row = .ok qs) ∧
      ∀ p, p ∈ ps ↔ ∃ row ∈ rows, ∃ qs, r.positions table row = .ok qs ∧ p ∈ qs := by
  induction rows generalizing ps with
  | nil =>
    cases h
    simp
  | cons row rows ih =>
    obtain ⟨first, hfirst, h⟩ := bind_eq_ok_iff.1 h
    obtain ⟨more, hmore, h⟩ := bind_eq_ok_iff.1 h
    cases h
    obtain ⟨hall, hmem⟩ := ih hmore
    refine ⟨List.forall_mem_cons.2 ⟨⟨first, hfirst⟩, hall⟩, fun p => ?_⟩
    simp [hmem, hfirst]

/-- Rows that match rows with places have places themselves, and only such places. -/
theorem positionsOfAll_of_match {rows rows' : List Row} {ps : List Nat}
    (hmatch : ∀ row ∈ rows, ∃ row' ∈ rows',
      (r.positions table row').toOption = (r.positions table row).toOption)
    (hps : r.positionsOfAll table rows' = .ok ps) :
    ∃ qs, r.positionsOfAll table rows = .ok qs ∧ ∀ p ∈ qs, p ∈ ps := by
  obtain ⟨hall, hmem⟩ := of_positionsOfAll hps
  have hsame : ∀ row ∈ rows, ∃ row' ∈ rows', ∃ qs, r.positions table row' = .ok qs ∧
      r.positions table row = .ok qs := by
    intro row hrow
    obtain ⟨row', hrow', heq⟩ := hmatch row hrow
    obtain ⟨qs, hqs⟩ := hall row' hrow'
    rw [hqs] at heq
    exact ⟨row', hrow', qs, hqs, toOption_eq_some_iff.1 heq.symm⟩
  obtain ⟨qs, hqs⟩ := exists_positionsOfAll fun row hrow => by
    obtain ⟨-, -, qs, -, hqs⟩ := hsame row hrow
    exact ⟨qs, hqs⟩
  refine ⟨qs, hqs, fun p hp => ?_⟩
  obtain ⟨row, hrow, ps', hps', hp⟩ := ((of_positionsOfAll hqs).2 p).1 hp
  obtain ⟨row', hrow', qs', hqs', hrow⟩ := hsame row hrow
  rw [hps'] at hrow
  cases hrow
  exact (hmem p).2 ⟨row', hrow', _, hqs', hp⟩

/-- The places of candidates are those of the candidate rows, if a column that needs a value has
candidates. -/
theorem positionsOfCandidates_eq (h : cands = [] → r.rule.requiredColumns = []) :
    r.positionsOfCandidates table cands = r.positionsOfAll table (candidateRows cands) := by
  cases cands with
  | nil =>
    have hempty : r.positions table (rowOf []) = r.positionsOf [] :=
      positions_of_required (by rw [h rfl]; exact nofun) table
    show r.positionsOf [] = r.positionsOfAll table [rowOf []]
    rw [positionsOfAll, hempty]
    cases r.positionsOf [] with
    | error fault => rfl
    | ok ps => exact congrArg Except.ok (List.append_nil ps).symm
  | cons c cands => rfl

/-- Only which positions there are counts, not how often or in which order. -/
theorem targetsAt_congr {ps qs : List Nat} (h : ∀ p, p ∈ ps ↔ p ∈ qs) :
    r.targetsAt table ps.contains = r.targetsAt table qs.contains := by
  have hcontains : ps.contains = qs.contains := by
    funext p
    rw [Bool.eq_iff_iff, List.contains_iff_mem, List.contains_iff_mem, h]
  rw [hcontains]

/-- Where each column has a candidate and all candidate rows go to the same parts, these are the
parts of the candidates. -/
theorem routeAll_of_forall (hnil : cands = [] → r.rule.requiredColumns = [])
    (hsome : ∀ c ∈ named cands, ∃ v, v ∈ c.2) {ps : List Nat}
    (h : ∀ row ∈ candidateRows cands, r.positions table row = .ok ps) :
    r.routeAll table cands = .ok (r.targetsAt table ps.contains) := by
  choose! choice hchoice using hsome
  obtain ⟨row, hrow, -⟩ := exists_candidateRow hchoice
  obtain ⟨qs, hqs⟩ := exists_positionsOfAll fun row hrow => ⟨ps, h row hrow⟩
  have hmem : ∀ p, p ∈ qs ↔ p ∈ ps := by
    intro p
    rw [(of_positionsOfAll hqs).2]
    constructor
    · rintro ⟨row', hrow', qs', hqs', hp⟩
      rw [h row' hrow'] at hqs'
      cases hqs'
      exact hp
    · exact fun hp => ⟨row, hrow, ps, h row hrow, hp⟩
  have hfull : ¬ (cands.any fun c => c.2.isEmpty) = true := by
    intro hany
    obtain ⟨c, hc, hempty⟩ := List.any_eq_true.1 hany
    have hin := hchoice _ (List.mem_map_of_mem hc)
    rw [List.isEmpty_iff.1 hempty] at hin
    cases hin
  rw [routeAll, if_neg hfull, positionsOfCandidates_eq hnil, hqs]
  exact congrArg Except.ok (targetsAt_congr hmem)

/-- Candidates whose rows match each other lead to the same tables, or both to none. -/
theorem routeAll_toOption_congr (hnil : cands = [] → r.rule.requiredColumns = [])
    (hnil' : cands' = [] → r.rule.requiredColumns = [])
    (hempty : (cands.any fun c => c.2.isEmpty) = cands'.any fun c => c.2.isEmpty)
    (hrows : ∀ row ∈ candidateRows cands, ∃ row' ∈ candidateRows cands',
      (r.positions table row').toOption = (r.positions table row).toOption)
    (hrows' : ∀ row' ∈ candidateRows cands', ∃ row ∈ candidateRows cands,
      (r.positions table row).toOption = (r.positions table row').toOption) :
    (r.routeAll table cands).toOption = (r.routeAll table cands').toOption := by
  rw [routeAll, routeAll, hempty]
  split
  · rfl
  rw [positionsOfCandidates_eq hnil, positionsOfCandidates_eq hnil']
  cases hps : r.positionsOfAll table (candidateRows cands) with
  | ok ps =>
    obtain ⟨qs, hqs, hsub⟩ := positionsOfAll_of_match hrows' hps
    obtain ⟨ps', hps', hsub'⟩ := positionsOfAll_of_match hrows hqs
    rw [hps] at hps'
    cases hps'
    rw [hqs]
    exact congrArg some (targetsAt_congr fun p => ⟨hsub' p, hsub p⟩)
  | error fault =>
    cases hqs : r.positionsOfAll table (candidateRows cands') with
    | ok qs =>
      obtain ⟨ps, hps', -⟩ := positionsOfAll_of_match hrows hqs
      rw [hps] at hps'
      cases hps'
    | error fault' => rfl

end Router

end ShardRouting
