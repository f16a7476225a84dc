import Mathlib.Data.List.Induction
import ShardRouting.Table

/-!
# One value for each key

Leaving out repetitions keeps each value unless one that is kept already is the same key. Being the
same key is not transitive, so the values that are kept do not stand for classes: a value may be the
same key as one that is left out, and yet be kept. No proof here combines two steps of the relation;
a value that is left out is compared with the one that it is left out for.

* `distinctKeys_concat`: what becomes of one more value; everything else follows from it.
* `distinctKeys_sublist`, `head?_distinctKeys`, `pairwise_distinctKeys`, `distinctKeys_eq_self_iff`:
  what is kept.
* `Covers`, `exists_covers`: for each value that is left out, one of its key in front of it is kept.
* `Sweep.turn?`, `Sweep.Ends`: the same as a loop that removes repetitions in place.
* `distinctKeys_represents`: all of this together.
-/

namespace ShardRouting

variable {values kept : List Value} {positions : List Nat} {i : Nat} {v w : Value}

/-! ### What is kept -/

/-- One more value is kept unless one that is kept already is the same key. -/
theorem distinctKeys_concat (values : List Value) (v : Value) :
    distinctKeys (values ++ [v]) =
      if (distinctKeys values).any fun k => k.sameKey v then distinctKeys values
      else distinctKeys values ++ [v] := by
  rw [distinctKeys, List.foldl_append]
  rfl

@[simp] theorem distinctKeys_singleton (v : Value) : distinctKeys [v] = [v] := rfl

/-- What is kept stands in the order in which it was. -/
theorem distinctKeys_sublist (values : List Value) : (distinctKeys values).Sublist values := by
  induction values using List.reverseRecOn with
  | nil => exact List.Sublist.refl []
  | append_singleton values v ih =>
    rw [distinctKeys_concat]
    split
    · exact ih.trans (List.sublist_append_left values [v])
    · exact ih.append (List.Sublist.refl [v])

/-- The first value is kept. -/
theorem head?_distinctKeys (values : List Value) : (distinctKeys values).head? = values.head? := by
  induction values using List.reverseRecOn with
  | nil => rfl
  | append_singleton values v ih =>
    rw [distinctKeys_concat, List.head?_append, ← ih]
    split
    · next hany =>
      obtain ⟨k, hk, -⟩ := List.any_eq_true.1 hany
      cases hkept : distinctKeys values with
      | nil => rw [hkept] at hk; cases hk
      | cons => rfl
    · rw [List.head?_append]

/-- No value that is kept is the same key as one that is kept in front of it. -/
theorem pairwise_distinctKeys (values : List Value) :
    (distinctKeys values).Pairwise fun a b => ¬ a.sameKey b := by
  induction values using List.reverseRecOn with
  | nil => exact List.Pairwise.nil
  | append_singleton values v ih =>
    rw [distinctKeys_concat]
    split
    · exact ih
    · next hnone =>
      refine List.pairwise_append.2 ⟨ih, List.pairwise_singleton _ v, fun k hk w hw => ?_⟩
      rw [List.mem_singleton.1 hw]
      exact fun hkey => hnone (List.any_eq_true.2 ⟨k, hk, hkey⟩)

/-- All values are kept exactly if none is the same key as one in front of it. -/
theorem distinctKeys_eq_self_iff :
    distinctKeys values = values ↔ values.Pairwise fun a b => ¬ a.sameKey b := by
  constructor
  · intro h
    rw [← h]
    exact pairwise_distinctKeys values
  · intro h
    induction values using List.reverseRecOn with
    | nil => rfl
    | append_singleton values v ih =>
      obtain ⟨hvalues, -, hlast⟩ := List.pairwise_append.1 h
      have hnone : ¬ (values.any fun k => k.sameKey v) := by
        intro hany
        obtain ⟨k, hk, hkey⟩ := List.any_eq_true.1 hany
        exact hlast k hk v (List.mem_singleton_self v) hkey
      rw [distinctKeys_concat, ih hvalues, if_neg hnone]

/-! ### What is left out -/

/-- The values at some positions are kept, in their order, and every value at another position is
the same key as one that is kept in front of it. -/
structure Covers (positions : List Nat) (values kept : List Value) : Prop where
  /-- The positions rise. -/
  rising : positions.Pairwise (· < ·)
  /-- The values at them are those that are kept. -/
  values_eq : positions.map (values[·]?) = kept.map some
  /-- A value at another position is the same key as one that is kept in front of it. -/
  covered : ∀ i v, values[i]? = some v → i ∉ positions →
    ∃ j ∈ positions, j < i ∧ ∃ k, values[j]? = some k ∧ k.sameKey v

/-- A value of a longer list is one of the list, or the last one. -/
theorem getElem?_concat_eq_some (h : (values ++ [w])[i]? = some v) :
    values[i]? = some v ∨ i = values.length ∧ v = w := by
  rcases Nat.lt_or_ge i values.length with hlt | hge
  · exact .inl (by rwa [List.getElem?_append_left hlt] at h)
  · rw [List.getElem?_append_right hge, List.getElem?_singleton] at h
    split at h
    · exact .inr ⟨by omega, (Option.some.inj h).symm⟩
    · cases h

namespace Covers

/-- There is a value at each position that is kept. -/
theorem exists_of_mem (h : Covers positions values kept) (hi : i ∈ positions) :
    ∃ k ∈ kept, values[i]? = some k := by
  have hmem : values[i]? ∈ kept.map some := h.values_eq ▸ List.mem_map_of_mem hi
  obtain ⟨k, hk, hvalue⟩ := List.mem_map.1 hmem
  exact ⟨k, hk, hvalue.symm⟩

theorem lt_length (h : Covers positions values kept) (hi : i ∈ positions) :
    i < values.length := by
  obtain ⟨k, -, hvalue⟩ := h.exists_of_mem hi
  exact (List.getElem?_eq_some_iff.1 hvalue).1

/-- Each value that is kept has its position. -/
theorem exists_position (h : Covers positions values kept) (hv : v ∈ kept) :
    ∃ i ∈ positions, values[i]? = some v := by
  have hmem : some v ∈ positions.map (values[·]?) := h.values_eq ▸ List.mem_map_of_mem hv
  exact List.mem_map.1 hmem

/-- One more value at the end changes nothing at the positions that are kept. -/
theorem getElem?_concat (h : Covers positions values kept) (hi : i ∈ positions) (w : Value) :
    (values ++ [w])[i]? = values[i]? :=
  List.getElem?_append_left (h.lt_length hi)

/-- What was covered still is with one more value at the end. -/
theorem covered_concat (h : Covers positions values kept) (hv : values[i]? = some v)
    (hout : i ∉ positions) (w : Value) :
    ∃ j ∈ positions, j < i ∧ ∃ k, (values ++ [w])[j]? = some k ∧ k.sameKey v := by
  obtain ⟨j, hj, hlt, k, hk, hkey⟩ := h.covered i v hv hout
  exact ⟨j, hj, hlt, k, (h.getElem?_concat hj w).trans hk, hkey⟩

/-- One more value is covered without its position if it is the same key as one that is kept. -/
theorem leave (h : Covers positions values kept) (hw : ∃ k ∈ kept, k.sameKey w) :
    Covers positions (values ++ [w]) kept where
  rising := h.rising
  values_eq := by
    rw [← h.values_eq]
    exact List.map_congr_left fun i hi => h.getElem?_concat hi w
  covered := by
    intro i v hv hout
    rcases getElem?_concat_eq_some hv with hold | ⟨rfl, rfl⟩
    · exact h.covered_concat hold hout w
    · obtain ⟨k, hk, hkey⟩ := hw
      obtain ⟨j, hj, hvalue⟩ := h.exists_position hk
      exact ⟨j, hj, h.lt_length hj, k, (h.getElem?_concat hj v).trans hvalue, hkey⟩

/-- One more value is covered if its position is added. -/
theorem keep (h : Covers positions values kept) (w : Value) :
    Covers (positions ++ [values.length]) (values ++ [w]) (kept ++ [w]) where
  rising := by
    refine List.pairwise_append.2 ⟨h.rising, List.pairwise_singleton _ _, fun i hi j hj => ?_⟩
    rw [List.mem_singleton.1 hj]
    exact h.lt_length hi
  values_eq := by
    rw [List.map_append, List.map_append, ← h.values_eq]
    congr 1
    · exact List.map_congr_left fun i hi => h.getElem?_concat hi w
    · simp
  covered := by
    intro i v hv hout
    rw [List.mem_append, List.mem_singleton, not_or] at hout
    rcases getElem?_concat_eq_some hv with hold | ⟨hlast, -⟩
    · obtain ⟨j, hj, hcovered⟩ := h.covered_concat hold hout.1 w
      exact ⟨j, List.mem_append_left _ hj, hcovered⟩
    · exact absurd hlast hout.2

end Covers

/-- For each value that is left out, one of its key in front of it is kept. -/
theorem exists_covers (values : List Value) :
    ∃ positions, Covers positions values (distinctKeys values) := by
  induction values using List.reverseRecOn with
  | nil => exact ⟨[], List.Pairwise.nil, rfl, fun i v hv => by cases hv⟩
  | append_singleton values w ih =>
    obtain ⟨positions, h⟩ := ih
    rw [distinctKeys_concat]
    -- the last value is compared with values that are kept only, so its key is that of one of these
    split
    · next hany => exact ⟨positions, h.leave (List.any_eq_true.1 hany)⟩
    · exact ⟨positions ++ [values.length], h.keep w⟩

/-- Every value is the same key as one that is kept. -/
theorem exists_sameKey_of_mem (h : v ∈ values) : ∃ k ∈ distinctKeys values, k.sameKey v := by
  obtain ⟨positions, hcovers⟩ := exists_covers values
  obtain ⟨i, hi⟩ := List.mem_iff_getElem?.1 h
  by_cases hin : i ∈ positions
  · obtain ⟨k, hk, hvalue⟩ := hcovers.exists_of_mem hin
    cases hi.symm.trans hvalue
    exact ⟨v, hk, Value.sameKey_self v⟩
  · obtain ⟨j, hj, -, k, hvalue, hkey⟩ := hcovers.covered i v hi hin
    obtain ⟨k', hk, hvalue'⟩ := hcovers.exists_of_mem hj
    cases hvalue.symm.trans hvalue'
    exact ⟨k, hk, hkey⟩

/-! ### The loop -/

/-- Values from which repetitions are being removed in place. -/
structure Sweep where
  /-- The values that are left. -/
  values : List Value
  /-- The position that is looked at next. -/
  index : Nat

namespace Sweep

/-- One turn of the loop, unless it is past the last value: the value looked at is removed, so that
the next one takes its position, if it is the same key as one in front of it; else it stays. -/
def turn? (s : Sweep) : Option Sweep :=
  match s.values[s.index]? with
  | none => none
  | some v =>
    if (s.values.take s.index).any fun k => k.sameKey v then
      some ⟨s.values.eraseIdx s.index, s.index⟩
    else some ⟨s.values, s.index + 1⟩

/-- A run of the loop ends after a number of turns, with the values that are left. -/
inductive Ends : Sweep → Nat → List Value → Prop
  /-- All values have been looked at. -/
  | done {s : Sweep} (atEnd : s.turn? = none) : Ends s 0 s.values
  /-- One is looked at, and the loop goes on. -/
  | goesOn {s next : Sweep} {n : Nat} {result : List Value} (turn : s.turn? = some next)
      (more : Ends next n result) : Ends s (n + 1) result

/-- A run has one end. -/
theorem Ends.unique {s : Sweep} {m n : Nat} {r r' : List Value} (h : Ends s m r)
    (h' : Ends s n r') : m = n ∧ r = r' := by
  induction h generalizing n with
  | done hnone =>
    cases h' with
    | done => exact ⟨rfl, rfl⟩
    | goesOn hturn => simp [hnone] at hturn
  | goesOn hturn _ ih =>
    cases h' with
    | done hnone => simp [hturn] at hnone
    | goesOn hturn' hmore =>
      cases hturn.symm.trans hturn'
      obtain ⟨rfl, rfl⟩ := ih hmore
      exact ⟨rfl, rfl⟩

/-- A turn takes the first of the values that are not looked at yet to those that are. In front of
the position stands what is kept of them. -/
theorem turn?_eq (before : List Value) (v : Value) (rest : List Value) :
    turn? ⟨distinctKeys before ++ v :: rest, (distinctKeys before).length⟩ =
      some ⟨distinctKeys (before ++ [v]) ++ rest, (distinctKeys (before ++ [v])).length⟩ := by
  have hvalue : (distinctKeys before ++ v :: rest)[(distinctKeys before).length]? = some v := by
    rw [List.getElem?_append_right (Nat.le_refl _), Nat.sub_self]
    rfl
  have hfront : (distinctKeys before ++ v :: rest).take (distinctKeys before).length =
      distinctKeys before := List.take_left
  rw [distinctKeys_concat]
  simp only [turn?, hvalue, hfront]
  split
  · rw [List.eraseIdx_append_of_length_le (Nat.le_refl _), Nat.sub_self, List.eraseIdx_cons_zero]
  · rw [List.append_assoc, List.length_append]
    rfl

/-- With some values looked at, a run takes one turn for each of the others. -/
theorem ends_distinctKeys (before rest : List Value) :
    Ends ⟨distinctKeys before ++ rest, (distinctKeys before).length⟩ rest.length
      (distinctKeys (before ++ rest)) := by
  -- with or without a removal, a turn leaves one value less to look at
  induction rest generalizing before with
  | nil =>
    rw [List.append_nil, List.append_nil]
    refine .done ?_
    simp [turn?]
  | cons v rest ih =>
    have hmore := ih (before ++ [v])
    rw [List.append_assoc, List.singleton_append] at hmore
    exact .goesOn (turn?_eq before v rest) hmore

end Sweep

/-! ### One value for each key -/

/-- Removing repetitions in place ends, after one turn for each value and in one way only, with what
`distinctKeys` keeps. That is a subsequence of the values which starts with the same value; no value
of it is the same key as one in front of it, and every value that is left out is the same key as one
that is kept and stood in front of it. To do it again changes nothing. -/
theorem distinctKeys_represents (values : List Value) :
    (∀ n result, Sweep.Ends ⟨values, 0⟩ n result ↔
      n = values.length ∧ result = distinctKeys values) ∧
    (distinctKeys values).Sublist values ∧
    (distinctKeys values).head? = values.head? ∧
    ((distinctKeys values).Pairwise fun a b => ¬ a.sameKey b) ∧
    (∃ positions, Covers positions values (distinctKeys values)) ∧
    distinctKeys (distinctKeys values) = distinctKeys values := by
  have hends : Sweep.Ends ⟨values, 0⟩ values.length (distinctKeys values) :=
    Sweep.ends_distinctKeys [] values
  refine ⟨fun n result => ⟨fun h => h.unique hends, ?_⟩, distinctKeys_sublist values,
    head?_distinctKeys values, pairwise_distinctKeys values, exists_covers values,
    distinctKeys_eq_self_iff.2 (pairwise_distinctKeys values)⟩
  rintro ⟨rfl, rfl⟩
  exact hends

/-- The numeral of five with a zero in front, as bytes and as a text, and five as a signed and an
unsigned integer: the text is left out for the bytes, and the signed integer is kept although it is
the same key as the text. -/
theorem distinctKeys_represents_five :
    Sweep.Ends ⟨[.bytes [0x30, 0x35], .text "05", .int 5, .uint 5], 0⟩ 4
        [.bytes [0x30, 0x35], .int 5] ∧
      Value.sameKey (.bytes [0x30, 0x35]) (.text "05") ∧ Value.sameKey (.text "05") (.int 5) ∧
        ¬ Value.sameKey (.bytes [0x30, 0x35]) (.int 5) ∧
          distinctKeys [.bytes [0x30, 0x35], .int 5] = [.bytes [0x30, 0x35], .int 5] := by
  have hkept : distinctKeys [.bytes [0x30, 0x35], .text "05", .int 5, .uint 5] =
      [.bytes [0x30, 0x35], .int 5] := by decide
  obtain ⟨hends, -, -, hapart, -, hagain⟩ :=
    distinctKeys_represents [.bytes [0x30, 0x35], .text "05", .int 5, .uint 5]
  rw [hkept] at hends hapart hagain
  refine ⟨(hends 4 _).2 ⟨rfl, rfl⟩, by decide, by decide, ?_, hagain⟩
  exact (List.pairwise_cons.1 hapart).1 _ (List.mem_singleton_self _)

end ShardRouting
