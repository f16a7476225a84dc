import Mathlib
import ShardRouting.Proofs.Candidates

/-!
# Combinations of candidates

A router is asked for several candidate values of several columns at once. What it gives is what it
gives for the single combinations, put together: a row for each way to take one value for each
column.

* `Router.Combines`: a row is a combination of candidate values; `Router.Hits`: the key of a row
  chooses a part; `Router.PicksOut`: targets are those of the parts with a property, each once, in
  the order of the partition.
* `Router.exists_candidateRow_iff`: the rows that are routed are the combinations.
* `Router.routeAll_union`: candidates are routed if every combination is, to the union of what these
  are routed to, whatever the order of candidates and values.
-/

namespace ShardRouting

namespace Router

variable {r : Router} {table : String} {cands cands' : List (String × List Value)} {row row' : Row}

/-- A row is a combination of candidate values: it binds each column that has candidates to one of
them, and no other column. -/
def Combines (cands : List (String × List Value)) (row : Row) : Prop :=
  (∀ c ∈ named cands, ∃ v ∈ c.2, row.get? c.1 = some v) ∧
    ∀ n, n ∉ (named cands).map Prod.fst → row.get? n = none

/-- The key of a row chooses the part at a position. -/
def Hits (r : Router) (row : Row) (p : Nat) : Prop :=
  ∃ key part, r.rule.key r.partition.length row = .ok key ∧ r.partition[p]? = some part ∧
    chooses key p part

/-- Targets are the physical tables of the parts at the positions with a property, each once and in
the order of the partition. -/
def PicksOut (r : Router) (table : String) (P : Nat → Prop) (targets : List Target) : Prop :=
  ∃ positions : List Nat, positions.Pairwise (· < ·) ∧ (∀ p, p ∈ positions ↔ P p) ∧
    (positions.map fun p => r.partition[p]?.map (targetOf table)) = targets.map some

/-- Candidates are those of another list in another order, with the values of each in another
order. -/
def Reordered (cands cands' : List (String × List Value)) : Prop :=
  ∃ mid, cands.Perm mid ∧ List.Forall₂ (fun c c' => c'.1 = c.1 ∧ c.2.Perm c'.2) mid cands'

/-! ### Where rows go -/

/-- A row goes where its key sends it, if it has a value in each column that needs one. -/
theorem positions_eq_ok_iff {ps : List Nat} : r.positions table row = .ok ps ↔
    (∀ c ∈ r.rule.requiredColumns, (row.value c.name).isNull = false) ∧
      r.positionsOf row = .ok ps := by
  rw [← missingColumn?_eq_none_iff]
  unfold positions
  split
  · next hmissing => simp [hmissing]
  · next hnone => rw [and_iff_right hnone]

/-- A row's key sends it to the positions that the key chooses, if there are any. -/
theorem positionsOf_eq_ok_iff {ps : List Nat} : r.positionsOf row = .ok ps ↔
    ∃ key, r.rule.key r.partition.length row = .ok key ∧ r.chosen key = ps ∧ ps ≠ [] := by
  unfold positionsOf
  split
  · next hkey => simp [hkey]
  · next key hkey =>
    simp only [hkey, Except.ok.injEq, exists_eq_left']
    cases r.chosen key with
    | nil =>
      constructor
      · rintro ⟨⟩
      · rintro ⟨rfl, hne⟩
        exact absurd rfl hne
    | cons p ps =>
      constructor
      · rintro ⟨⟩
        exact ⟨rfl, List.cons_ne_nil _ _⟩
      · rintro ⟨rfl, -⟩
        rfl

theorem mem_chosen_iff {key : Key} {p : Nat} : p ∈ r.chosen key ↔
    ∃ part, r.partition[p]? = some part ∧ chooses key p part := by
  simp only [chosen, List.mem_map, List.mem_filter, Prod.exists, List.mem_zipIdx_iff_getElem?]
  constructor
  · rintro ⟨part, q, ⟨hpart, hq⟩, rfl⟩
    exact ⟨part, hpart, hq⟩
  · rintro ⟨part, hpart, hp⟩
    exact ⟨part, p, ⟨hpart, hp⟩, rfl⟩

/-- Of positions with a property each comes once, in ascending order. -/
theorem pairwise_positions (r : Router) (q : Part × Nat → Bool) :
    ((r.partition.zipIdx.filter q).map Prod.snd).Pairwise (· < ·) := by
  refine List.Pairwise.sublist (List.filter_sublist.map Prod.snd) ?_
  rw [List.zipIdx_map_snd]
  exact List.pairwise_lt_range'

/-- The positions that a row goes to are those that it hits. -/
theorem mem_iff_hits {ps : List Nat} (h : r.positionsOf row = .ok ps) {p : Nat} :
    p ∈ ps ↔ r.Hits row p := by
  obtain ⟨key, hkey, rfl, -⟩ := positionsOf_eq_ok_iff.1 h
  rw [mem_chosen_iff]
  constructor
  · rintro ⟨part, hpart, hp⟩
    exact ⟨key, part, hkey, hpart, hp⟩
  · rintro ⟨key', part, hkey', hpart, hp⟩
    cases hkey.symm.trans hkey'
    exact ⟨part, hpart, hp⟩

/-- A row whose values are not asked for goes somewhere if it hits a part. -/
theorem exists_positionsOf_iff : (∃ ps, r.positionsOf row = .ok ps) ↔ ∃ p, r.Hits row p := by
  constructor
  · rintro ⟨ps, hps⟩
    obtain ⟨-, -, -, hne⟩ := positionsOf_eq_ok_iff.1 hps
    obtain ⟨p, hp⟩ := List.exists_mem_of_ne_nil ps hne
    exact ⟨p, (mem_iff_hits hps).1 hp⟩
  · rintro ⟨p, key, part, hkey, hpart, hp⟩
    refine ⟨_, positionsOf_eq_ok_iff.2 ⟨key, hkey, rfl, fun hnil => ?_⟩⟩
    have hmem := mem_chosen_iff.2 ⟨part, hpart, hp⟩
    rw [hnil] at hmem
    cases hmem

theorem Hits.lt_length {p : Nat} (h : r.Hits row p) : p < r.partition.length := by
  obtain ⟨key, part, -, hpart, -⟩ := h
  exact (List.getElem?_eq_some_iff.1 hpart).1

/-- The targets at some of the positions of a partition are picked out by these. -/
theorem picksOut_targetsAt {ps : List Nat} {P : Nat → Prop}
    (hP : ∀ p, P p ↔ p < r.partition.length ∧ p ∈ ps) :
    r.PicksOut table P (r.targetsAt table ps.contains) := by
  refine ⟨(r.partition.zipIdx.filter fun e => ps.contains e.2).map Prod.snd,
    r.pairwise_positions _, fun p => ?_, ?_⟩
  · rw [hP]
    simp only [List.mem_map, List.mem_filter, Prod.exists, List.mem_zipIdx_iff_getElem?,
      List.contains_iff_mem]
    constructor
    · rintro ⟨part, q, ⟨hpart, hq⟩, rfl⟩
      exact ⟨(List.getElem?_eq_some_iff.1 hpart).1, hq⟩
    · rintro ⟨hlt, hp⟩
      exact ⟨r.partition[p], p, ⟨List.getElem?_eq_getElem hlt, hp⟩, rfl⟩
  · rw [targetsAt, List.map_map, List.map_map]
    refine List.map_congr_left fun e he => ?_
    obtain ⟨part, q⟩ := e
    have hpart := List.mem_zipIdx_iff_getElem?.1 (List.mem_filter.1 he).1
    simp only [Function.comp_apply, hpart, Option.map_some]

/-- A row is routed to the parts that it hits. -/
theorem picksOut_of_route {targets : List Target} (h : r.route table row = .ok targets) :
    r.PicksOut table (r.Hits row) targets := by
  obtain ⟨ps, hps, h⟩ := bind_eq_ok_iff.1 h
  cases h
  refine picksOut_targetsAt fun p => ?_
  have hmem := mem_iff_hits (positions_eq_ok_iff.1 hps).2 (p := p)
  rw [hmem]
  exact ⟨fun hp => ⟨hp.lt_length, hp⟩, And.right⟩

theorem exists_route_iff : (∃ targets, r.route table row = .ok targets) ↔
    ∃ ps, r.positions table row = .ok ps := by
  constructor
  · rintro ⟨targets, h⟩
    obtain ⟨ps, hps, -⟩ := bind_eq_ok_iff.1 h
    exact ⟨ps, hps⟩
  · rintro ⟨ps, hps⟩
    exact ⟨_, bind_eq_ok_iff.2 ⟨ps, hps, rfl⟩⟩

/-- Rows that bind the same go to the same positions. -/
theorem positions_of_get?_eq (h : ∀ n, row'.get? n = row.get? n) :
    r.positions table row' = r.positions table row := by
  have hvalue : ∀ n, row'.value n = row.value n := fun n => by rw [Row.value, Row.value, h]
  exact positions_congr (fun n _ => hvalue n) (fun c _ => hvalue c.name) table

/-! ### Combinations -/

theorem map_fst_named : (named cands).map Prod.fst =
    cands.map fun c => Identifier.normalize c.1 := by
  rw [named, List.map_map]
  rfl

/-- The rows that are routed are combinations. -/
theorem combines_of_mem_candidateRows (hnames : ((named cands).map Prod.fst).Nodup)
    (h : row ∈ candidateRows cands) : Combines cands row := by
  constructor
  · intro c hc
    obtain ⟨v, hv⟩ := Option.isSome_iff_exists.1
      ((isSome_get?_iff_of_mem_candidateRows h).2 (List.mem_map_of_mem hc))
    obtain ⟨vs, hvs, hmem⟩ := exists_candidate_of_get? h hv
    have hsame : (c.1, vs) = c := List.inj_on_of_nodup_map hnames hvs hc rfl
    exact ⟨v, congrArg Prod.snd hsame ▸ hmem, hv⟩
  · intro n hn
    rw [← isSome_get?_iff_of_mem_candidateRows h] at hn
    exact Option.not_isSome_iff_eq_none.1 hn

/-- Every combination is routed, as a row that binds the same. -/
theorem exists_candidateRow_of_combines (h : Combines cands row) :
    ∃ row' ∈ candidateRows cands, ∀ n, row'.get? n = row.get? n := by
  have hchoice : ∀ c ∈ named cands, row.value c.1 ∈ c.2 := by
    intro c hc
    obtain ⟨v, hv, hrow⟩ := h.1 c hc
    rw [Row.value, hrow]
    exact hv
  obtain ⟨row', hrow', hbinds⟩ := exists_candidateRow hchoice
  refine ⟨row', hrow', fun n => ?_⟩
  cases hn : row'.get? n with
  | some v =>
    obtain ⟨c, hc, rfl, hcv⟩ := hbinds n v hn
    obtain ⟨w, -, hrow⟩ := h.1 c hc
    rw [hrow, ← hcv, Row.value, hrow]
    rfl
  | none =>
    refine (h.2 n fun hmem => ?_).symm
    rw [← isSome_get?_iff_of_mem_candidateRows hrow', hn] at hmem
    cases hmem

/-- All rows that are routed have a place if all combinations have one. -/
theorem forall_candidateRows_iff (hnames : ((named cands).map Prod.fst).Nodup) :
    (∀ row ∈ candidateRows cands, ∃ ps, r.positions table row = .ok ps) ↔
      ∀ row, Combines cands row → ∃ targets, r.route table row = .ok targets := by
  simp only [exists_route_iff]
  constructor
  · intro h row hrow
    obtain ⟨row', hrow', hsame⟩ := exists_candidateRow_of_combines hrow
    rw [← positions_of_get?_eq hsame]
    exact h row' hrow'
  · exact fun h row hrow => h row (combines_of_mem_candidateRows hnames hrow)

/-! ### Candidates in another order -/

theorem Reordered.symm (h : Reordered cands cands') : Reordered cands' cands := by
  obtain ⟨mid, hperm, hvalues⟩ := h
  obtain ⟨mid', hvalues', hperm'⟩ := List.perm_comp_forall₂ hperm hvalues
  refine ⟨mid', hperm'.symm, (List.Forall₂.flip hvalues').imp ?_⟩
  rintro c c' ⟨hname, hc⟩
  exact ⟨hname.symm, hc.symm⟩

/-- Every column has the same candidates in either order. -/
theorem Reordered.exists_mem (h : Reordered cands cands') {c' : String × List Value}
    (hc' : c' ∈ cands') : ∃ c ∈ cands, c.1 = c'.1 ∧ ∀ v, v ∈ c.2 ↔ v ∈ c'.2 := by
  obtain ⟨mid, hperm, hvalues⟩ := h
  have hmid : ∃ c ∈ mid, c.1 = c'.1 ∧ ∀ v, v ∈ c.2 ↔ v ∈ c'.2 := by
    clear hperm
    induction hvalues with
    | nil => cases hc'
    | cons hrel _ ih =>
      rcases List.mem_cons.1 hc' with rfl | hc'
      · exact ⟨_, List.mem_cons_self, hrel.1.symm, fun v => hrel.2.mem_iff⟩
      · obtain ⟨c, hc, hsame⟩ := ih hc'
        exact ⟨c, List.mem_cons_of_mem _ hc, hsame⟩
  obtain ⟨c, hc, hsame⟩ := hmid
  exact ⟨c, hperm.mem_iff.2 hc, hsame⟩

theorem Reordered.perm_names (h : Reordered cands cands') :
    ((named cands).map Prod.fst).Perm ((named cands').map Prod.fst) := by
  obtain ⟨mid, hperm, hvalues⟩ := h
  rw [map_fst_named, map_fst_named]
  refine (hperm.map _).trans (List.Perm.of_eq ?_)
  clear hperm
  induction hvalues with
  | nil => rfl
  | cons hrel _ ih => simp only [List.map_cons, hrel.1, ih]

/-- The combinations of candidates are those of the same candidates in another order. -/
theorem Reordered.combines (h : Reordered cands cands') (hrow : Combines cands row) :
    Combines cands' row := by
  constructor
  · intro c' hc'
    obtain ⟨d', hd', rfl⟩ := List.mem_map.1 hc'
    obtain ⟨d, hd, hname, hmem⟩ := h.exists_mem hd'
    obtain ⟨v, hv, hget⟩ := hrow.1 _ (List.mem_map_of_mem hd)
    exact ⟨v, (hmem v).1 hv, hname ▸ hget⟩
  · exact fun n hn => hrow.2 n fun hmem => hn (h.perm_names.mem_iff.1 hmem)

theorem Reordered.any_isEmpty (h : Reordered cands cands') :
    (cands.any fun c => c.2.isEmpty) = cands'.any fun c => c.2.isEmpty := by
  have himp : ∀ {a b : List (String × List Value)}, Reordered a b →
      (b.any fun c => c.2.isEmpty) = true → (a.any fun c => c.2.isEmpty) = true := by
    intro a b hab hb
    obtain ⟨c', hc', hempty⟩ := List.any_eq_true.1 hb
    obtain ⟨c, hc, -, hmem⟩ := hab.exists_mem hc'
    refine List.any_eq_true.2 ⟨c, hc, ?_⟩
    rw [List.isEmpty_iff] at hempty ⊢
    refine List.eq_nil_iff_forall_not_mem.2 fun v hv => ?_
    have hv' := (hmem v).1 hv
    rw [hempty] at hv'
    cases hv'
  exact Bool.eq_iff_iff.2 ⟨himp h.symm, himp h⟩

/-- Each row that is routed for candidates has a counterpart for the same candidates in another
order. -/
theorem Reordered.exists_candidateRow (h : Reordered cands cands')
    (hnames : ((named cands).map Prod.fst).Nodup) (hrow : row ∈ candidateRows cands) :
    ∃ row' ∈ candidateRows cands',
      (r.positions table row').toOption = (r.positions table row).toOption := by
  obtain ⟨row', hrow', hsame⟩ :=
    exists_candidateRow_of_combines (h.combines (combines_of_mem_candidateRows hnames hrow))
  exact ⟨row', hrow', congrArg Except.toOption (positions_of_get?_eq hsame)⟩

/-- Candidates lead to the same tables in any order, or in every order to none. -/
theorem Reordered.routeAll_toOption (h : Reordered cands cands')
    (hnames : ((named cands).map Prod.fst).Nodup) :
    (r.routeAll table cands').toOption = (r.routeAll table cands).toOption := by
  have hnil : cands = [] ↔ cands' = [] := by
    have hlength := h.perm_names.length_eq
    simp only [map_fst_named, List.length_map] at hlength
    rw [← List.length_eq_zero_iff, ← List.length_eq_zero_iff, hlength]
  by_cases hcands : cands = []
  · rw [hcands, hnil.1 hcands]
  · refine (routeAll_toOption_congr (fun hc => absurd hc hcands)
      (fun hc => absurd (hnil.2 hc) hcands) h.any_isEmpty
      (fun row hrow => h.exists_candidateRow hnames hrow) fun row hrow => ?_).symm
    exact h.symm.exists_candidateRow (h.perm_names.nodup_iff.1 hnames) hrow

/-! ### Routes of candidates -/

/-- The rows that bind nothing are the combinations of no candidates. -/
theorem combines_nil_iff : Combines [] row ↔ ∀ n, row.get? n = none :=
  ⟨fun h n => h.2 n List.not_mem_nil, fun h => ⟨nofun, fun n _ => h n⟩⟩

theorem hits_of_get?_eq (h : ∀ n, row'.get? n = row.get? n) {p : Nat} :
    r.Hits row' p ↔ r.Hits row p := by
  have hkey : r.rule.key r.partition.length row' = r.rule.key r.partition.length row :=
    Rule.key_congr (fun n _ => by rw [Row.value, Row.value, h]) _
  rw [Hits, Hits, hkey]

theorem routeAll_eq_ok_iff (hvalues : ∀ c ∈ cands, c.2 ≠ []) {targets : List Target} :
    r.routeAll table cands = .ok targets ↔ ∃ ps,
      r.positionsOfCandidates table cands = .ok ps ∧ targets = r.targetsAt table ps.contains := by
  have hfull : ¬ (cands.any fun c => c.2.isEmpty) = true := by
    intro hany
    obtain ⟨c, hc, hempty⟩ := List.any_eq_true.1 hany
    exact hvalues c hc (List.isEmpty_iff.1 hempty)
  rw [routeAll, if_neg hfull, bind_eq_ok_iff]
  simp only [Except.ok.injEq, eq_comm]

theorem exists_routeAll_iff (hvalues : ∀ c ∈ cands, c.2 ≠ []) :
    (∃ targets, r.routeAll table cands = .ok targets) ↔
      ∃ ps, r.positionsOfCandidates table cands = .ok ps := by
  simp only [routeAll_eq_ok_iff hvalues]
  exact ⟨fun ⟨_, ps, hps, _⟩ => ⟨ps, hps⟩, fun ⟨ps, hps⟩ => ⟨_, ps, hps, rfl⟩⟩

/-- The positions of candidates are those that some combination hits. -/
theorem mem_positionsOfCandidates_iff (hnames : ((named cands).map Prod.fst).Nodup) {ps : List Nat}
    (h : r.positionsOfCandidates table cands = .ok ps) {p : Nat} :
    p ∈ ps ↔ ∃ row, Combines cands row ∧ r.Hits row p := by
  by_cases hcands : cands = []
  · subst hcands
    rw [mem_iff_hits h]
    constructor
    · exact fun hp => ⟨[], combines_nil_iff.2 fun _ => rfl, hp⟩
    · rintro ⟨row, hrow, hp⟩
      exact (hits_of_get?_eq fun n => (combines_nil_iff.1 hrow n).trans rfl).1 hp
  · rw [positionsOfCandidates_eq fun hc => absurd hc hcands] at h
    obtain ⟨hall, hmem⟩ := of_positionsOfAll h
    rw [hmem]
    constructor
    · rintro ⟨row, hrow, qs, hqs, hp⟩
      exact ⟨row, combines_of_mem_candidateRows hnames hrow,
        (mem_iff_hits (positions_eq_ok_iff.1 hqs).2).1 hp⟩
    · rintro ⟨row, hrow, hp⟩
      obtain ⟨row', hrow', hsame⟩ := exists_candidateRow_of_combines hrow
      obtain ⟨qs, hqs⟩ := hall row' hrow'
      exact ⟨row', hrow', qs, hqs,
        (mem_iff_hits (positions_eq_ok_iff.1 hqs).2).2 ((hits_of_get?_eq hsame).2 hp)⟩

/-- Candidates of which a column has none lead to no target. Otherwise, if no column is listed
twice, candidates are routed just if all their combinations are, and no candidates just if a row
without values hits a part. The targets are those of the parts that some combination hits, each once
and in the order of the partition, as those of a single row are the ones that it hits. The order of
the candidates, and of the values of each, does not matter. -/
theorem routeAll_union (r : Router) (table : String) (cands : List (String × List Value)) :
    ((∃ c ∈ cands, c.2 = []) → r.routeAll table cands = .ok []) ∧
    ((cands.map fun c => Identifier.normalize c.1).Nodup → (∀ c ∈ cands, c.2 ≠ []) →
      (cands ≠ [] → ((∃ targets, r.routeAll table cands = .ok targets) ↔
        ∀ row, Combines cands row → ∃ targets, r.route table row = .ok targets)) ∧
      (cands = [] → ((∃ targets, r.routeAll table cands = .ok targets) ↔ ∃ p, r.Hits [] p)) ∧
      (∀ targets, r.routeAll table cands = .ok targets →
        r.PicksOut table (fun p => ∃ row, Combines cands row ∧ r.Hits row p) targets) ∧
      (∀ row targets, r.route table row = .ok targets → r.PicksOut table (r.Hits row) targets) ∧
      ∀ cands', Reordered cands cands' →
        (r.routeAll table cands').toOption = (r.routeAll table cands).toOption) := by
  refine ⟨?_, ?_⟩
  · rintro ⟨⟨column, values⟩, hc, rfl⟩
    exact routeAll_of_empty hc
  intro hnames hvalues
  rw [← map_fst_named] at hnames
  refine ⟨fun hcands => ?_, fun hcands => ?_, fun targets htargets => ?_,
    fun row targets => picksOut_of_route, fun cands' h => h.routeAll_toOption hnames⟩
  · rw [exists_routeAll_iff hvalues, positionsOfCandidates_eq fun hc => absurd hc hcands,
      ← forall_candidateRows_iff hnames]
    exact ⟨fun ⟨ps, hps⟩ => (of_positionsOfAll hps).1, exists_positionsOfAll⟩
  · rw [exists_routeAll_iff hvalues, hcands]
    exact exists_positionsOf_iff
  · obtain ⟨ps, hps, rfl⟩ := (routeAll_eq_ok_iff hvalues).1 htargets
    have hmem := fun p => mem_positionsOfCandidates_iff hnames hps (p := p)
    refine picksOut_targetsAt fun p => ?_
    rw [hmem]
    exact ⟨fun hp => ⟨hp.elim fun _ h => h.2.lt_length, hp⟩, And.right⟩

/-- A router that names parts by suffix, so that one key may choose several. -/
def suffixRouter : Router where
  id := "by-suffix"
  partition := [⟨"s0", "_0"⟩, ⟨"s1", "_0"⟩, ⟨"s1", "_1"⟩, ⟨"s2", "_2"⟩]
  rule := ⟨[{ name := "a" }, { name := "b" }],
    .expression ⟨"concat('_', ($\x7ba\x7d + $\x7bb\x7d) % 2)", .call .concat
      [.literal (.text "_"), .binary .rem (.binary .add (.column "a") (.column "b"))
        (.literal (.int 2))]⟩⟩

/-- Two values of one column and one of another are two combinations, one of which hits two parts;
in another order they lead to the same targets, and each combination is routed by itself. -/
theorem routeAll_union_suffix :
    suffixRouter.routeAll "orders" [("A", [.int 3, .int 0]), ("b", [])] = .ok [] ∧
      (suffixRouter.routeAll "orders" [("b", [.int 1]), ("A", [.int 0, .int 3])]).toOption =
        some [⟨"s0", "orders", "_0"⟩, ⟨"s1", "orders", "_0"⟩, ⟨"s1", "orders", "_1"⟩] ∧
      ∀ row, Combines [("A", [.int 3, .int 0]), ("b", [.int 1])] row →
        ∃ targets, suffixRouter.route "orders" row = .ok targets := by
  have hroute : suffixRouter.routeAll "orders" [("A", [.int 3, .int 0]), ("b", [.int 1])] =
      .ok [⟨"s0", "orders", "_0"⟩, ⟨"s1", "orders", "_0"⟩, ⟨"s1", "orders", "_1"⟩] := by
    decide +kernel
  obtain ⟨hall, -, -, -, horder⟩ :=
    (routeAll_union suffixRouter "orders" [("A", [.int 3, .int 0]), ("b", [.int 1])]).2
      (by decide +kernel) (by decide)
  have hreordered : Reordered [("A", [.int 3, .int 0]), ("b", [.int 1])]
      [("b", [.int 1]), ("A", [.int 0, .int 3])] :=
    ⟨[("b", [.int 1]), ("A", [.int 3, .int 0])], List.Perm.swap _ _ _,
      .cons ⟨rfl, .refl _⟩ (.cons ⟨rfl, List.Perm.swap _ _ _⟩ .nil)⟩
  refine ⟨(routeAll_union suffixRouter "orders" [("A", [.int 3, .int 0]), ("b", [])]).1
    ⟨("b", []), by simp, rfl⟩, ?_, (hall (by decide)).1 ⟨_, hroute⟩⟩
  rw [horder _ hreordered, hroute]
  rfl

end Router

end ShardRouting
