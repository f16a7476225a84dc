import Mathlib
import ShardRouting.Proofs.Accepted
import ShardRouting.Proofs.CandidateUnion

/-!
# Places by algorithm

Where the built-in algorithms send a row. A remainder by the number of parts is always the position
of a part; bounds, one for each part, are searched for the first one above the value.

* `Rule.firstValue?`: the value that a built-in algorithm looks at.
* `Router.Lands`: a row goes to one part, and to which one.
* `KeyAlgorithm.Between`: a value is below the bound at a position, and not below the one before.
* `Router.lands_of_build`: the part that each algorithm sends a row to, and when there is none.
-/

namespace ShardRouting

/-! ### Keys -/

namespace KeyAlgorithm

variable {count : Nat} {values : List Value} {v : Value} {i : Int64} {args : List Int64}

/-- A value lies between bounds at a position: it is below the bound there, and not below the one
before, if there is one. -/
def Between (bounds : List Int64) (p : Nat) (i : Int64) : Prop :=
  (∃ upper, bounds[p]? = some upper ∧ i < upper) ∧
    ∀ q lower, q + 1 = p → bounds[q]? = some lower → lower ≤ i

theorem firstValue_eq (h : (values.find? fun v => !v.isNull) = some v) :
    firstValue values = .ok v := by
  rw [firstValue, h]

theorem firstInteger_eq (h : (values.find? fun v => !v.isNull) = some v)
    (hi : v.integer? = some i) : firstInteger values = .ok i := by
  rw [firstInteger, firstValue_eq h]
  simp only [bind, Except.bind, hi]

theorem firstInteger_eq_error (h : (values.find? fun v => !v.isNull) = some v)
    (hi : v.integer? = none) : firstInteger values = .error (.notInteger v) := by
  rw [firstInteger, firstValue_eq h]
  simp only [bind, Except.bind, hi]

/-- A number that is not above the number of parts is an integer in range. -/
theorem toInt_ofNat_of_le {p : Nat} (hp : p ≤ count) (hsize : (count : Int) ≤ Integer.greatest) :
    (Int64.ofNat p).toInt = p := by
  unfold Integer.greatest at hsize
  exact Int64.toInt_ofNat_of_lt (by omega)

/-- A positive argument is the modulus. -/
theorem modulus_singleton {m : Int64} (hm : 0 < m) : modulus count [m] = .ok m := by
  unfold modulus
  exact if_neg (Int64.not_le.2 hm)

/-- Without arguments the modulus is the number of parts, if there are some and not too many. -/
theorem modulus_nil (hpos : 0 < count) (hsize : (count : Int) ≤ Integer.greatest) :
    modulus count [] = .ok (Int64.ofNat count) := by
  have hnot : ¬ Int64.ofNat count ≤ 0 := by
    rw [← Integer.toInt_nonpos, toInt_ofNat_of_le (Nat.le_refl count) hsize]
    omega
  unfold modulus
  rw [List.headD_nil]
  exact if_neg hnot

theorem remainder_eq (h : (values.find? fun v => !v.isNull) = some v) (hi : v.integer? = some i)
    {m : Int64} (hm : modulus count args = .ok m) :
    remainder count args values = .ok (residue i.toInt m) := by
  simp only [remainder, firstInteger_eq h hi, hm, bind, Except.bind]

theorem crc32Remainder_eq (h : (values.find? fun v => !v.isNull) = some v) {m : Int64}
    (hm : modulus count args = .ok m) :
    crc32Remainder count args values = .ok (residue (Checksum.crc32 v.keyBytes).toNat m) := by
  simp only [crc32Remainder, firstValue_eq h, hm, bind, Except.bind]

theorem hashRemainder_eq (h : (values.find? fun v => !v.isNull) = some v) {m : Int64}
    (hm : modulus count args = .ok m) :
    hashRemainder count args values = .ok (residue (Checksum.textHash v.toText) m) := by
  simp only [hashRemainder, firstValue_eq h, hm, bind, Except.bind]

/-- A remainder by the number of parts is the position of a part. -/
theorem exists_residue_eq (hpos : 0 < count) (hsize : (count : Int) ≤ Integer.greatest) (i : Int) :
    (i % count).toNat < count ∧
      ∃ w, residue i (Int64.ofNat count) = .index w ∧ w.toInt = (i % count).toNat := by
  have hnonneg : 0 ≤ i % count := Int.emod_nonneg i (by omega)
  have hlt : i % count < count := Int.emod_lt_of_pos i (by omega)
  have hcount := toInt_ofNat_of_le (Nat.le_refl count) hsize
  unfold Integer.greatest at hsize
  refine ⟨by omega, _, rfl, ?_⟩
  rw [hcount, Int64.toInt_ofInt_of_le (by omega) (by omega), Int.toNat_of_nonneg hnonneg]

/-- The first bound above a value is the one that the value lies below, but not below the one
before. -/
theorem findIdx?_eq_some_iff_between (hargs : args.Pairwise (· < ·)) {p : Nat} :
    (args.findIdx? fun upper => i < upper) = some p ↔ Between args p i := by
  rw [List.findIdx?_eq_some_iff_getElem]
  simp only [decide_eq_true_eq, Int64.not_lt]
  constructor
  · rintro ⟨hp, hupper, hlower⟩
    refine ⟨⟨args[p], List.getElem?_eq_getElem hp, hupper⟩, fun q lower hq hget => ?_⟩
    obtain ⟨hlt, rfl⟩ := List.getElem?_eq_some_iff.1 hget
    exact hlower q (by omega)
  · rintro ⟨⟨upper, hget, hupper⟩, hlower⟩
    obtain ⟨hp, rfl⟩ := List.getElem?_eq_some_iff.1 hget
    refine ⟨hp, hupper, fun j hj => ?_⟩
    -- bounds before the last one below the value are less than that one
    obtain ⟨q, rfl⟩ : ∃ q, p = q + 1 := ⟨p - 1, by omega⟩
    have hlast := hlower q _ rfl (List.getElem?_eq_getElem (by omega))
    rcases Nat.lt_or_ge j q with hjq | hjq
    · have hless := List.pairwise_iff_getElem.1 hargs j q (by omega) (by omega) hjq
      exact Int64.le_of_lt (Int64.lt_of_lt_of_le hless hlast)
    · obtain rfl : j = q := by omega
      exact hlast

/-- Greater values lie between later bounds. -/
theorem Between.le_of_le (hargs : args.Pairwise (· < ·)) {j : Int64} {p q : Nat}
    (hp : Between args p i) (hq : Between args q j) (hij : i ≤ j) : p ≤ q := by
  by_contra hlt
  obtain ⟨⟨upper, hget, hupper⟩, -⟩ := hq
  obtain ⟨hlength, rfl⟩ := List.getElem?_eq_some_iff.1 hget
  obtain ⟨_, _, hbefore⟩ := List.findIdx?_eq_some_iff_getElem.1
    ((findIdx?_eq_some_iff_between hargs).2 hp)
  refine hbefore q (by omega) (decide_eq_true ?_)
  exact Int64.lt_of_le_of_lt hij hupper

/-- There is a bound above a value if the last one is. -/
theorem exists_between_iff (hargs : args.Pairwise (· < ·)) {last : Int64}
    (hlast : args.getLast? = some last) : (∃ p, Between args p i) ↔ i < last := by
  simp only [← findIdx?_eq_some_iff_between hargs]
  rw [← Option.isSome_iff_exists, List.findIdx?_isSome, List.any_eq_true]
  simp only [decide_eq_true_eq]
  constructor
  · rintro ⟨upper, hmem, hupper⟩
    obtain ⟨init, rfl⟩ := List.getLast?_eq_some_iff.1 hlast
    rcases List.mem_append.1 hmem with hinit | hend
    · exact Int64.lt_trans hupper
        ((List.pairwise_append.1 hargs).2.2 upper hinit last (List.mem_singleton_self _))
    · rwa [List.mem_singleton.1 hend] at hupper
  · exact fun h => ⟨last, List.mem_of_getLast? hlast, h⟩

end KeyAlgorithm

namespace Rule

/-- The value that a built-in algorithm looks at: the first one that a row binds among the columns
of a rule, the absent value left out. -/
def firstValue? (rule : Rule) (row : Row) : Option Value :=
  (rule.columns.map fun c => row.value c.name).find? fun v => !v.isNull

/-- A row binds the columns of a rule that need a value. -/
def IsBoundOn (rule : Rule) (row : Row) : Prop :=
  ∀ c ∈ rule.requiredColumns, (row.value c.name).isNull = false

instance (rule : Rule) (row : Row) : Decidable (rule.IsBoundOn row) :=
  inferInstanceAs (Decidable (∀ c ∈ rule.requiredColumns, (row.value c.name).isNull = false))

variable {rule : Rule} {row : Row}

/-- Where a column needs a value, a row that binds such columns has a first value. -/
theorem IsBoundOn.exists_firstValue? (h : rule.IsBoundOn row) (hne : rule.requiredColumns ≠ []) :
    ∃ v, rule.firstValue? row = some v := by
  obtain ⟨c, hc⟩ := List.exists_mem_of_ne_nil _ hne
  rw [← Option.isSome_iff_exists, firstValue?, List.find?_isSome]
  exact ⟨_, List.mem_map_of_mem (List.mem_filter.1 hc).1, by rw [h c hc]; rfl⟩

/-- A row that binds the columns of a rule to one value binds each of them to it. -/
theorem value_of_constant {columns : List RuleColumn} {c : RuleColumn} (hc : c ∈ columns)
    (v : Value) : Row.value (columns.map fun c => (c.name, v)) c.name = v := by
  rw [Row.value, Row.get?]
  cases h : (columns.map fun c => (c.name, v)).lookup c.name with
  | none =>
    have hne := List.lookup_eq_none_iff.1 h _ (List.mem_map_of_mem hc)
    exact absurd hne (by simp)
  | some w =>
    obtain ⟨before, after, heq, -⟩ := List.lookup_eq_some_iff.1 h
    have hmem : (c.name, w) ∈ columns.map fun c => (c.name, v) := heq ▸ by simp
    obtain ⟨_, -, hw⟩ := List.mem_map.1 hmem
    exact (congrArg Prod.snd hw).symm

/-- Each value is the first one of some row that binds the columns of a rule. -/
theorem exists_row_of_value (hne : rule.columns ≠ []) {v : Value} (hv : v.isNull = false) :
    ∃ row, rule.IsBoundOn row ∧ rule.firstValue? row = some v := by
  have hvalue := fun c (hc : c ∈ rule.columns) => value_of_constant hc v
  refine ⟨rule.columns.map fun c => (c.name, v), fun c hc => ?_, ?_⟩
  · rw [hvalue c (List.mem_filter.1 hc).1, hv]
  · rw [firstValue?, List.map_congr_left hvalue]
    obtain ⟨c, rest, hcolumns⟩ := List.exists_cons_of_ne_nil hne
    rw [hcolumns, List.map_cons, List.find?_cons_of_pos (by rw [hv]; rfl)]

theorem key_of_algorithm {run : KeyAlgorithm} {args : List Int64}
    (h : rule.kind = .algorithm run args) (count : Nat) (row : Row) :
    rule.key count row = run count args (rule.columns.map fun c => row.value c.name) := by
  simp only [key, h]
  rfl

end Rule

/-! ### Places -/

namespace Router

variable {r : Router} {table : String} {row : Row} {registry : Registry} {s : RouterSettings}
  {p : Nat} {v : Value} {i : Int64} {args : List Int64}

/-- A row goes to the part at a position, and to no other. -/
def Lands (r : Router) (table : String) (row : Row) (p : Nat) : Prop :=
  r.positions table row = .ok [p] ∧
    ∃ part, r.partition[p]? = some part ∧ r.route table row = .ok [targetOf table part]

/-- A row lands on one part only. -/
theorem Lands.unique {q : Nat} (hp : r.Lands table row p) (hq : r.Lands table row q) : p = q := by
  have hsame := hp.1.symm.trans hq.1
  simpa using hsame

theorem eq_singleton_of_pairwise {positions : List Nat} (h : positions.Pairwise (· < ·))
    (hmem : ∀ q, q ∈ positions ↔ q = p) : positions = [p] := by
  have hnodup : positions.Nodup := h.imp Nat.ne_of_lt
  refine List.perm_singleton.1 ((List.perm_ext_iff_of_nodup hnodup (List.nodup_singleton p)).2 ?_)
  exact fun q => (hmem q).trans List.mem_singleton.symm

/-- A key that is a position chooses the part there, and no other. -/
theorem chosen_index {w : Int64} (hw : w.toInt = p) (hp : p < r.partition.length) :
    r.chosen (.index w) = [p] := by
  refine eq_singleton_of_pairwise (r.pairwise_positions _) fun q => ?_
  refine mem_chosen_iff.trans ?_
  simp only [chooses, hw, beq_iff_eq, Nat.cast_inj]
  constructor
  · rintro ⟨part, -, rfl⟩
    rfl
  · rintro rfl
    exact ⟨_, List.getElem?_eq_getElem hp, rfl⟩

/-- A row whose key is a position goes to the part there. -/
theorem lands_of_key (hbound : r.rule.IsBoundOn row) {w : Int64}
    (hkey : r.rule.key r.partition.length row = .ok (.index w)) (hw : w.toInt = p)
    (hp : p < r.partition.length) : r.Lands table row p := by
  have hpositions : r.positions table row = .ok [p] :=
    positions_eq_ok_iff.2 ⟨hbound, positionsOf_eq_ok_iff.2
      ⟨_, hkey, chosen_index hw hp, List.cons_ne_nil _ _⟩⟩
  have hroute : r.route table row = .ok (r.targetsAt table [p].contains) :=
    bind_eq_ok_iff.2 ⟨_, hpositions, rfl⟩
  have hhits := fun q => mem_iff_hits (positions_eq_ok_iff.1 hpositions).2 (p := q)
  obtain ⟨positions, hpairwise, hmem, htargets⟩ := picksOut_of_route hroute
  obtain rfl : positions = [p] :=
    eq_singleton_of_pairwise hpairwise fun q => by rw [hmem, ← hhits, List.mem_singleton]
  have hpart := List.getElem?_eq_getElem hp
  refine ⟨hpositions, r.partition[p], hpart, hroute.trans (congrArg Except.ok ?_)⟩
  refine List.map_injective_iff.2 (Option.some_injective _) (htargets.symm.trans ?_)
  rw [List.map_singleton, hpart]
  rfl

/-- A row without a key is not routed. -/
theorem route_eq_error_of_key (hbound : r.rule.IsBoundOn row) {reason : KeyFault}
    (hkey : r.rule.key r.partition.length row = .error reason) :
    r.route table row = .error (.noKey r.id reason) := by
  have hpositions : r.positions table row = .error (.noKey r.id reason) := by
    unfold positions
    rw [missingColumn?_eq_none_iff.2 hbound]
    unfold positionsOf
    rw [hkey]
  rw [route, hpositions]
  rfl

/-- A key that is a remainder by the number of parts is the position of one. -/
theorem lands_of_residue (hpos : 0 < r.partition.length)
    (hsize : (r.partition.length : Int) ≤ Integer.greatest) (hbound : r.rule.IsBoundOn row)
    {x : Int} (hkey : r.rule.key r.partition.length row =
      .ok (KeyAlgorithm.residue x (Int64.ofNat r.partition.length))) :
    r.Lands table row (x % r.partition.length).toNat := by
  obtain ⟨hlt, w, hresidue, hw⟩ := KeyAlgorithm.exists_residue_eq hpos hsize x
  exact lands_of_key hbound (hresidue ▸ hkey) hw hlt

/-- The integer of a row's first value, or the lack of one, decides where a remainder sends it. -/
theorem lands_of_remainder (hpos : 0 < r.partition.length)
    (hsize : (r.partition.length : Int) ≤ Integer.greatest)
    (hkind : r.rule.kind = .algorithm KeyAlgorithm.remainder []) (hbound : r.rule.IsBoundOn row)
    (hfirst : r.rule.firstValue? row = some v) :
    (∀ i, v.integer? = some i → r.Lands table row (i.toInt % r.partition.length).toNat) ∧
      (v.integer? = none → r.route table row = .error (.noKey r.id (.notInteger v))) := by
  constructor
  · intro i hi
    refine lands_of_residue hpos hsize hbound ?_
    rw [Rule.key_of_algorithm hkind]
    exact KeyAlgorithm.remainder_eq hfirst hi (KeyAlgorithm.modulus_nil hpos hsize)
  · intro hnone
    refine route_eq_error_of_key hbound ?_
    rw [Rule.key_of_algorithm hkind, KeyAlgorithm.remainder,
      KeyAlgorithm.firstInteger_eq_error hfirst hnone]
    rfl

/-- A remainder leaves no part out: the row that binds all columns to a position goes there. -/
theorem exists_row_lands (hsize : (r.partition.length : Int) ≤ Integer.greatest)
    (hkind : r.rule.kind = .algorithm KeyAlgorithm.remainder []) (hcolumns : r.rule.columns ≠ [])
    (hp : p < r.partition.length) : ∃ row, r.rule.IsBoundOn row ∧ r.Lands table row p := by
  obtain ⟨row, hbound, hfirst⟩ := Rule.exists_row_of_value hcolumns
    (show (Value.int (Int64.ofNat p)).isNull = false from rfl)
  have hlands : r.Lands table row _ :=
    (lands_of_remainder (Nat.zero_lt_of_lt hp) hsize hkind hbound hfirst).1 _ rfl
  rw [KeyAlgorithm.toInt_ofNat_of_le hp.le hsize, Int.emod_eq_of_lt (by omega) (by omega),
    Int.toNat_natCast] at hlands
  exact ⟨row, hbound, hlands⟩

/-- Checksums of values, and hashes of their texts, send every row somewhere. -/
theorem exists_lands_of_hash (hpos : 0 < r.partition.length)
    (hsize : (r.partition.length : Int) ≤ Integer.greatest)
    (hkind : r.rule.kind = .algorithm KeyAlgorithm.crc32Remainder [] ∨
      r.rule.kind = .algorithm KeyAlgorithm.hashRemainder [])
    (hbound : r.rule.IsBoundOn row) (hfirst : r.rule.firstValue? row = some v) :
    ∃ p, r.Lands table row p := by
  have hmodulus := KeyAlgorithm.modulus_nil hpos hsize
  rcases hkind with hkind | hkind
  · have hkey := (Rule.key_of_algorithm hkind _ row).trans
      (KeyAlgorithm.crc32Remainder_eq hfirst hmodulus)
    exact ⟨_, lands_of_residue hpos hsize hbound hkey⟩
  · have hkey := (Rule.key_of_algorithm hkind _ row).trans
      (KeyAlgorithm.hashRemainder_eq hfirst hmodulus)
    exact ⟨_, lands_of_residue hpos hsize hbound hkey⟩

/-- A row whose first value lies between bounds goes to the position of these. -/
theorem lands_of_between (hsize : (r.partition.length : Int) ≤ Integer.greatest)
    (hkind : r.rule.kind = .algorithm KeyAlgorithm.range args) (hargs : args.Pairwise (· < ·))
    (hlength : args.length = r.partition.length) (hbound : r.rule.IsBoundOn row)
    (hfirst : r.rule.firstValue? row = some v) (hi : v.integer? = some i)
    (hp : KeyAlgorithm.Between args p i) : r.Lands table row p := by
  obtain ⟨upper, hget, -⟩ := hp.1
  have hlt : p < r.partition.length := hlength ▸ (List.getElem?_eq_some_iff.1 hget).1
  refine lands_of_key hbound ?_ (KeyAlgorithm.toInt_ofNat_of_le hlt.le hsize) hlt
  rw [Rule.key_of_algorithm hkind, KeyAlgorithm.range, KeyAlgorithm.firstInteger_eq hfirst hi]
  simp only [bind, Except.bind, (KeyAlgorithm.findIdx?_eq_some_iff_between hargs).2 hp]

/-- A row that goes to a part has its first value between the bounds at that position. -/
theorem between_of_lands (hsize : (r.partition.length : Int) ≤ Integer.greatest)
    (hkind : r.rule.kind = .algorithm KeyAlgorithm.range args) (hargs : args.Pairwise (· < ·))
    (hlength : args.length = r.partition.length) (hbound : r.rule.IsBoundOn row)
    (hfirst : r.rule.firstValue? row = some v) (hi : v.integer? = some i)
    (hp : r.Lands table row p) : KeyAlgorithm.Between args p i := by
  obtain ⟨key, hkey, -⟩ := positionsOf_eq_ok_iff.1 (positions_eq_ok_iff.1 hp.1).2
  rw [Rule.key_of_algorithm hkind, KeyAlgorithm.range,
    KeyAlgorithm.firstInteger_eq hfirst hi] at hkey
  cases hfind : args.findIdx? fun upper => i < upper with
  | none =>
    simp only [bind, Except.bind, hfind] at hkey
    cases hkey
  | some q =>
    have hq := (KeyAlgorithm.findIdx?_eq_some_iff_between hargs).1 hfind
    rwa [hp.unique (lands_of_between hsize hkind hargs hlength hbound hfirst hi hq)]

/-- A row whose first value is not below the last bound is not routed. -/
theorem route_eq_error_of_last_le (hkind : r.rule.kind = .algorithm KeyAlgorithm.range args)
    (hargs : args.Pairwise (· < ·)) {last : Int64} (hlast : args.getLast? = some last)
    (hbound : r.rule.IsBoundOn row) (hfirst : r.rule.firstValue? row = some v)
    (hi : v.integer? = some i) (hle : last ≤ i) :
    r.route table row = .error (.noKey r.id (.aboveRange i)) := by
  have hnone : (args.findIdx? fun upper => i < upper) = none := by
    refine Option.eq_none_iff_forall_ne_some.2 fun p hp => ?_
    have hbelow := (KeyAlgorithm.exists_between_iff hargs hlast).1
      ⟨p, (KeyAlgorithm.findIdx?_eq_some_iff_between hargs).1 hp⟩
    exact Int64.not_le.2 hbelow hle
  refine route_eq_error_of_key hbound ?_
  rw [Rule.key_of_algorithm hkind, KeyAlgorithm.range, KeyAlgorithm.firstInteger_eq hfirst hi]
  simp only [bind, Except.bind, hnone]

/-- The built-in algorithms send a row that binds what their rule needs to one part. Remainders of
checksums and of hashes always do, if it needs some. A remainder of a value sends the row to the
part at that place if the value is an integer, be it negative, and only other values go nowhere; it
leaves no part out. Ascending bounds, one for each part, send it to the part between whose
bounds the integer lies, which is one if the integer is below the last bound, else none; greater
integers go to later parts. (No list in memory is longer than the greatest integer.) -/
theorem lands_of_build (hbuild : build registry s = .ok r)
    (hsize : (r.partition.length : Int) ≤ Integer.greatest) (table : String) :
    (r.rule.requiredColumns ≠ [] →
      ∀ row, r.rule.IsBoundOn row → ∃ v, r.rule.firstValue? row = some v) ∧
    (r.rule.kind = .algorithm KeyAlgorithm.crc32Remainder [] ∨
        r.rule.kind = .algorithm KeyAlgorithm.hashRemainder [] →
      r.rule.requiredColumns ≠ [] → ∀ row, r.rule.IsBoundOn row → ∃ p, r.Lands table row p) ∧
    (r.rule.kind = .algorithm KeyAlgorithm.remainder [] →
      (∀ row v, r.rule.IsBoundOn row → r.rule.firstValue? row = some v →
        (∀ i, v.integer? = some i → r.Lands table row (i.toInt % r.partition.length).toNat) ∧
        (v.integer? = none → r.route table row = .error (.noKey r.id (.notInteger v)))) ∧
      ∀ p < r.partition.length, ∃ row, r.rule.IsBoundOn row ∧ r.Lands table row p) ∧
    ∀ args, r.rule.kind = .algorithm KeyAlgorithm.range args → args.Pairwise (· < ·) →
      args.length = r.partition.length →
      (∀ row v i, r.rule.IsBoundOn row → r.rule.firstValue? row = some v → v.integer? = some i →
        ∃ last, args.getLast? = some last ∧
          (i < last → ∃ p, r.Lands table row p ∧ ∀ q, KeyAlgorithm.Between args q i ↔ q = p) ∧
          (last ≤ i → r.route table row = .error (.noKey r.id (.aboveRange i)))) ∧
      ∀ row row' v v' i i' p p', r.rule.IsBoundOn row → r.rule.IsBoundOn row' →
        r.rule.firstValue? row = some v → r.rule.firstValue? row' = some v' →
        v.integer? = some i → v'.integer? = some i' → i ≤ i' →
        r.Lands table row p → r.Lands table row' p' → p ≤ p' := by
  have hpos : 0 < r.partition.length :=
    List.length_pos_iff.2 (build_eq_ok_iff.1 hbuild).2.2.2.1
  refine ⟨fun hneeds row hbound => hbound.exists_firstValue? hneeds,
    fun hkind hneeds row hbound => ?_,
    fun hkind => ⟨fun row v => lands_of_remainder hpos hsize hkind, fun p hp => ?_⟩,
    fun args hkind hargs hlength => ⟨fun row v i hbound hfirst hi => ?_, ?_⟩⟩
  · obtain ⟨v, hfirst⟩ := hbound.exists_firstValue? hneeds
    exact exists_lands_of_hash hpos hsize hkind hbound hfirst
  · obtain ⟨hcolumns, hnames, -⟩ := Rule.build_eq_ok_iff.1 (build_eq_ok_iff.1 hbuild).2.2.2.2
    have hne : r.rule.columns ≠ [] := fun hnil => hcolumns (List.map_eq_nil_iff.1 (hnames ▸ hnil))
    exact exists_row_lands hsize hkind hne hp
  · obtain ⟨last, hlast⟩ : ∃ last, args.getLast? = some last :=
      ⟨_, List.getLast?_eq_some_getLast (List.ne_nil_of_length_pos (hlength ▸ hpos))⟩
    refine ⟨last, hlast, fun hlt => ?_,
      route_eq_error_of_last_le hkind hargs hlast hbound hfirst hi⟩
    obtain ⟨p, hp⟩ := (KeyAlgorithm.exists_between_iff hargs hlast).2 hlt
    refine ⟨p, lands_of_between hsize hkind hargs hlength hbound hfirst hi hp, fun q => ⟨?_, ?_⟩⟩
    · exact fun hq => Nat.le_antisymm (hq.le_of_le hargs hp (Int64.le_refl i))
        (hp.le_of_le hargs hq (Int64.le_refl i))
    · rintro rfl
      exact hp
  · intro row row' v v' i i' p p' hbound hbound' hfirst hfirst' hi hi' hii' hp hp'
    have hbetween := between_of_lands hsize hkind hargs hlength hbound hfirst hi hp
    have hbetween' := between_of_lands hsize hkind hargs hlength hbound' hfirst' hi' hp'
    exact hbetween.le_of_le hargs hbetween' hii'

/-- Settings of a router over three parts by the columns `Region` and `Id`. -/
def spreadSettings (algorithm : String) (args : List Int64) : RouterSettings where
  id := "spread"
  partition := [⟨"s0", []⟩, ⟨"s1", ["_0", "_1"]⟩]
  rule := { columns := [⟨"Region", false⟩, ⟨"Id", true⟩], algorithm := some algorithm, args }

/-- The router of these settings. -/
def spreadRouter (run : KeyAlgorithm) (args : List Int64) : Router where
  id := "spread"
  partition := [⟨"s0", ""⟩, ⟨"s1", "_0"⟩, ⟨"s1", "_1"⟩]
  rule := ⟨[⟨"region", false⟩, ⟨"id", true⟩], .algorithm run args⟩

theorem build_spreadSettings (name : String) {run : KeyAlgorithm}
    (h : Registry.builtin.find? name = some run) (args : List Int64) :
    build Registry.builtin (spreadSettings name args) = .ok (spreadRouter run args) := by
  have hparts : (spreadRouter .range []).partition.Nodup := by decide
  have hcolumns : (spreadSettings "" []).rule.columns.map (fun c =>
    { c with name := Identifier.normalize c.name }) = (spreadRouter .range []).rule.columns := rfl
  refine build_eq_ok_iff.2 ⟨rfl, rfl, hparts, List.cons_ne_nil _ _, ?_⟩
  refine Rule.build_eq_ok_iff.2 ⟨List.cons_ne_nil _ _, hcolumns.symm, ?_⟩
  simp only [Rule.buildKind, spreadSettings, h, spreadRouter]

/-- Of three parts the last is at the remainder of minus four; between the bounds ten, twenty and
thirty all values below thirty have a place, twenty among them. -/
theorem lands_of_build_spread :
    (∃ p, (spreadRouter .hashRemainder []).Lands "orders" [("id", .text "a-7")] p) ∧
      (spreadRouter .remainder []).Lands "orders" [("id", .int (-4))] 2 ∧
      (spreadRouter .remainder []).route "orders" [("id", .int 1), ("region", .text "eu")] =
        .error (.noKey "spread" (.notInteger (.text "eu"))) ∧
      (∃ p, (spreadRouter .range [10, 20, 30]).Lands "orders" [("id", .text " 20 ")] p ∧
        ∀ q, KeyAlgorithm.Between [10, 20, 30] q 20 ↔ q = p) ∧
      (spreadRouter .range [10, 20, 30]).route "orders" [("id", .int 30)] =
        .error (.noKey "spread" (.aboveRange 30)) := by
  have hhash := build_spreadSettings "hash_mod" (by rfl) []
  have hmod := build_spreadSettings "MOD" (by rfl) []
  have hrange := build_spreadSettings "range" (by rfl) [10, 20, 30]
  obtain ⟨-, hchecksum, -⟩ := lands_of_build hhash (by decide) "orders"
  obtain ⟨-, -, hremainder, -⟩ := lands_of_build hmod (by decide) "orders"
  obtain ⟨-, -, -, hbetween⟩ := lands_of_build hrange (by decide) "orders"
  have hplace := (hbetween [10, 20, 30] rfl (by decide) rfl).1
  refine ⟨hchecksum (.inr rfl) (by decide) _ (by decide), ?_, ?_, ?_, ?_⟩
  · exact ((hremainder rfl).1 [("id", .int (-4))] _ (by decide) rfl).1 (-4) rfl
  · exact ((hremainder rfl).1 [("id", .int 1), ("region", .text "eu")] _ (by decide) rfl).2
      (by decide)
  · obtain ⟨last, hlast, hlands, -⟩ :=
      hplace [("id", .text " 20 ")] _ 20 (by decide) rfl (by decide)
    cases hlast
    exact hlands (by decide)
  · obtain ⟨last, hlast, -, hroute⟩ := hplace [("id", .int 30)] _ 30 (by decide) rfl (by decide)
    cases hlast
    exact hroute (by decide)

end Router

end ShardRouting
