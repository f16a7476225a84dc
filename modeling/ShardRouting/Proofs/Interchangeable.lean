import ShardRouting.Proofs.Reads

/-!
# Values that routing does not tell apart

Two values are interchangeable in a column if a router treats them alike whatever else a row binds.
Being the same key is not enough for that: the same number may be stored as an integer and as a text,
and these have different bytes. The same integer, text, bytes and operand are enough.

* `Router.Interchangeable`, and `Router.positions_toOption_congr` for rows with interchangeable
  values in several columns.
* `Router.interchangeable_of_views`: values that all accepted rules treat alike.
-/

namespace ShardRouting

open Expression

namespace Router

variable {r : Router} {row row' : Row} {a b : Value}

/-- Values that a router sends to the same parts, or both to none, whatever else a row binds. -/
def Interchangeable (r : Router) (column : String) (a b : Value) : Prop :=
  ∀ row : Row, (r.positionsOf (row.insert column a)).toOption =
    (r.positionsOf (row.insert column b)).toOption

/-- Up to failures, the parts of a row are those that its key chooses. -/
theorem toOption_positionsOf (r : Router) (row : Row) :
    (r.positionsOf row).toOption = (r.rule.key r.partition.length row).toOption.bind fun key =>
      if r.chosen key = [] then none else some (r.chosen key) := by
  unfold positionsOf
  cases r.rule.key r.partition.length row with
  | error reason => rfl
  | ok key =>
    simp only [Except.toOption, Option.bind_some]
    cases r.chosen key <;> rfl

/-! ### Several columns at once -/

/-- Rows with interchangeable values in finitely many columns, and the same values elsewhere, go to
the same parts. -/
theorem positionsOf_toOption_congr (columns : List String)
    (hoff : ∀ n, n ∉ columns → row'.value n = row.value n)
    (hon : ∀ n ∈ columns,
      row'.value n = row.value n ∨ r.Interchangeable n (row'.value n) (row.value n)) :
    (r.positionsOf row').toOption = (r.positionsOf row).toOption := by
  induction columns generalizing row' with
  | nil => rw [positionsOf_congr fun n _ => hoff n (List.not_mem_nil)]
  | cons m columns ih =>
    -- the value of the first column is exchanged, and the rest is left to the other columns
    have hself : r.positionsOf (row'.insert m (row'.value m)) = r.positionsOf row' := by
      refine positionsOf_congr fun n _ => ?_
      rw [Row.value_insert]
      split
      · next h => rw [h]
      · rfl
    have hfirst : (r.positionsOf row').toOption =
        (r.positionsOf (row'.insert m (row.value m))).toOption := by
      rw [← hself]
      rcases hon m List.mem_cons_self with h | h
      · rw [h]
      · exact h row'
    rw [hfirst]
    refine ih (fun n hn => ?_) (fun n hn => ?_)
    · rw [Row.value_insert]
      split
      · next h => rw [h]
      · next h => exact hoff n (List.not_mem_cons_of_ne_of_not_mem h hn)
    · rw [Row.value_insert]
      split
      · next h => exact Or.inl (by rw [h])
      · exact hon n (List.mem_cons_of_mem _ hn)

/-- The same where columns may need values. -/
theorem positions_toOption_congr (columns : List String)
    (hnull : ∀ n, (row'.value n).isNull = (row.value n).isNull)
    (hoff : ∀ n, n ∉ columns → row'.value n = row.value n)
    (hon : ∀ n ∈ columns,
      row'.value n = row.value n ∨ r.Interchangeable n (row'.value n) (row.value n))
    (table : String) :
    (r.positions table row').toOption = (r.positions table row).toOption := by
  have hmissing : r.missingColumn? row' = r.missingColumn? row :=
    List.find?_congr fun c _ => hnull c.name
  rw [positions, positions, hmissing]
  cases r.missingColumn? row with
  | some c => rfl
  | none => exact positionsOf_toOption_congr columns hoff hon

/-! ### Views of values -/

/-- Of values in the same columns of two rows that differ in one column, the first ones that are
there are the same, or the values of that column. -/
theorem find?_insert (row : Row) (column : String) (hnull : a.isNull = b.isNull)
    (names : List String) :
    ((names.map (row.insert column a).value).find? fun v => !v.isNull) =
        ((names.map (row.insert column b).value).find? fun v => !v.isNull) ∨
      ((names.map (row.insert column a).value).find? fun v => !v.isNull) = some a ∧
        ((names.map (row.insert column b).value).find? fun v => !v.isNull) = some b := by
  induction names with
  | nil => exact Or.inl rfl
  | cons n names ih =>
    simp only [List.map_cons, List.find?_cons, Row.value_insert]
    by_cases hn : n = column
    · rw [if_pos hn, if_pos hn, hnull]
      cases b.isNull with
      | true => exact ih
      | false => exact Or.inr ⟨rfl, rfl⟩
    · rw [if_neg hn, if_neg hn]
      cases (row.value n).isNull with
      | true => exact ih
      | false => exact Or.inl rfl

/-- The built-in algorithms treat values alike that have the same integer, text and bytes. -/
theorem builtin_toOption_congr {name : String} {run : KeyAlgorithm}
    (hrun : Registry.builtin.find? name = some run) (partitionCount : Nat) (args : List Int64)
    (hinteger : a.integer? = b.integer?) (htext : a.toText = b.toText)
    (hbytes : a.keyBytes = b.keyBytes) {values values' : List Value}
    (ha : (values.find? fun v => !v.isNull) = some a)
    (hb : (values'.find? fun v => !v.isNull) = some b) :
    (run partitionCount args values).toOption = (run partitionCount args values').toOption := by
  have hfirst : KeyAlgorithm.firstValue values = .ok a := by rw [KeyAlgorithm.firstValue, ha]
  have hfirst' : KeyAlgorithm.firstValue values' = .ok b := by rw [KeyAlgorithm.firstValue, hb]
  have hint : (KeyAlgorithm.firstInteger values).toOption =
      (KeyAlgorithm.firstInteger values').toOption := by
    rw [KeyAlgorithm.firstInteger, KeyAlgorithm.firstInteger, hfirst, hfirst']
    simp only [bind, Except.bind, hinteger]
    cases b.integer? <;> rfl
  rcases Rule.builtin_cases hrun with rfl | rfl | rfl | rfl
  · exact toOption_bind_congr hint fun _ _ => rfl
  · rw [KeyAlgorithm.crc32Remainder, KeyAlgorithm.crc32Remainder, hfirst, hfirst']
    simp only [bind, Except.bind, hbytes]
  · rw [KeyAlgorithm.hashRemainder, KeyAlgorithm.hashRemainder, hfirst, hfirst']
    simp only [bind, Except.bind, htext]
  · exact toOption_bind_congr hint fun _ _ => rfl

/-- Values with the same integer, text, bytes and operand are interchangeable in every column. -/
theorem interchangeable_of_views (hbuiltin : r.rule.IsBuiltin)
    (hnull : a.isNull = b.isNull) (hinteger : a.integer? = b.integer?)
    (htext : a.toText = b.toText) (hbytes : a.keyBytes = b.keyBytes)
    (hoperand : Scalar.ofValue? a = Scalar.ofValue? b) (column : String) :
    r.Interchangeable column a b := by
  intro row
  have hkey : (r.rule.key r.partition.length (row.insert column a)).toOption =
      (r.rule.key r.partition.length (row.insert column b)).toOption := by
    unfold Rule.key
    rcases hk : r.rule.kind with ⟨run, args⟩ | e
    · obtain ⟨name, hrun⟩ := hbuiltin run args hk
      have hfind := find?_insert row column hnull (r.rule.columns.map RuleColumn.name)
      rw [List.map_map, List.map_map] at hfind
      rcases hfind with hsame | ⟨ha, hb⟩
      · exact congrArg _ (Rule.builtin_congr hrun _ args hsame)
      · exact builtin_toOption_congr hrun _ args hinteger htext hbytes ha hb
    · have heval : e.eval (row.insert column a) = e.eval (row.insert column b) := by
        refine e.root.eval_congr fun n _ => ?_
        rw [Row.operand?_eq, Row.operand?_eq, Row.value_insert, Row.value_insert]
        split
        · exact hoperand
        · rfl
      simp only [heval]
  rw [toOption_positionsOf, toOption_positionsOf, hkey]

end Router

end ShardRouting
