import ShardRouting.Expression.Eval
import ShardRouting.Proofs.Outcome

/-!
# The columns of an expression

An expression reads a row only at the columns that its placeholders name.

* `Tree.columns`: the names in the placeholders of a tree, in the order of the text.
* `Tree.eval_congr`: rows that agree on these columns give the tree one value, or one error.
* `Tree.isSome_iff_of_eval`: without `coalesce` a tree has a value exactly where each of its columns
  has one; this is what makes an expression sensitive to all of them.
-/

namespace ShardRouting.Expression

mutual

/-- The names of the columns in a tree, in the order of the text. -/
def Tree.columns : Tree → List String
  | .literal _ => []
  | .column name => [name]
  | .negate t => t.columns
  | .binary _ left right => left.columns ++ right.columns
  | .call _ args => columnsAll args

/-- The names of the columns in several trees. -/
def columnsAll : List Tree → List String
  | [] => []
  | t :: ts => t.columns ++ columnsAll ts

end

mutual

/-- Whether a tree has no call of `coalesce`, the one function that hides an absent operand. -/
def Tree.isStrict : Tree → Bool
  | .literal _ | .column _ => true
  | .negate t => t.isStrict
  | .binary _ left right => left.isStrict && right.isStrict
  | .call f args => f ≠ .coalesce && strictAll args

/-- Whether several trees have no call of `coalesce`. -/
def strictAll : List Tree → Bool
  | [] => true
  | t :: ts => t.isStrict && strictAll ts

end

@[simp] theorem columnsAll_cons (t : Tree) (ts : List Tree) :
    columnsAll (t :: ts) = t.columns ++ columnsAll ts := by rw [columnsAll]

/-- What a placeholder for a column reads from a row. -/
def operand? (row : Row) (name : String) : Option Scalar :=
  (row.get? name).bind Scalar.ofValue?

/-! ### The value depends on the columns alone -/

mutual

/-- Rows with the same operands in the columns of a tree give it the same value. -/
theorem Tree.eval_congr {row row' : Row} :
    (t : Tree) → (∀ n ∈ t.columns, operand? row' n = operand? row n) →
      t.eval row' = t.eval row
  | .literal _, _ => by rw [Tree.eval, Tree.eval]
  | .column name, h => by
    rw [Tree.eval, Tree.eval]
    exact congrArg Except.ok (h name (by simp [Tree.columns]))
  | .negate t, h => by
    have ht := t.eval_congr fun n hn => h n (by rwa [Tree.columns])
    rw [Tree.eval, Tree.eval, ht]
  | .binary op left right, h => by
    have hl := left.eval_congr fun n hn => h n (by simp [Tree.columns, hn])
    have hr := right.eval_congr fun n hn => h n (by simp [Tree.columns, hn])
    rw [Tree.eval, Tree.eval, hl, hr]
  | .call f args, h => by
    have hargs : ∀ n ∈ columnsAll args, operand? row' n = operand? row n :=
      fun n hn => h n (by rwa [Tree.columns])
    by_cases hf : f = .coalesce
    · subst hf
      rw [Tree.eval, Tree.eval, firstPresent_congr args hargs]
    · rw [Tree.eval, Tree.eval, evalAll_congr args hargs] <;> exact hf

/-- The same for the values of several trees. -/
theorem evalAll_congr {row row' : Row} :
    (ts : List Tree) → (∀ n ∈ columnsAll ts, operand? row' n = operand? row n) →
      evalAll row' ts = evalAll row ts
  | [], _ => by rw [evalAll, evalAll]
  | t :: ts, h => by
    have ht := t.eval_congr fun n hn => h n (by simp [hn])
    have hts := evalAll_congr ts fun n hn => h n (by simp [hn])
    rw [evalAll, evalAll, ht, hts]

/-- The same for the first value that is present. -/
theorem firstPresent_congr {row row' : Row} :
    (ts : List Tree) → (∀ n ∈ columnsAll ts, operand? row' n = operand? row n) →
      firstPresent row' ts = firstPresent row ts
  | [], _ => by rw [firstPresent, firstPresent]
  | t :: ts, h => by
    have ht := t.eval_congr fun n hn => h n (by simp [hn])
    have hts := firstPresent_congr ts fun n hn => h n (by simp [hn])
    rw [firstPresent, firstPresent, ht, hts]

end

/-! ### Absence outside `coalesce` -/

/-- Values are all present exactly where none of them is absent. -/
theorem isSome_allPresent_cons (v : Option Scalar) (vs : List (Option Scalar)) :
    (allPresent (v :: vs)).isSome = (v.isSome && (allPresent vs).isSome) := by
  cases v with
  | none => rfl
  | some s => rw [allPresent, Option.isSome_map]; rfl

mutual

/-- Without `coalesce` a tree has a value that is there exactly on the rows that bind one in each
of its columns. -/
theorem Tree.isSome_iff_of_eval {row : Row} :
    (t : Tree) → t.isStrict → {v : Option Scalar} → t.eval row = .ok v →
      (v.isSome ↔ ∀ n ∈ t.columns, (operand? row n).isSome)
  | .literal s, _, v, h => by
    rw [Tree.eval] at h
    cases h
    simp [Tree.columns]
  | .column name, _, v, h => by
    rw [Tree.eval] at h
    cases h
    simp [Tree.columns, operand?]
  | .negate t, hs, v, h => by
    rw [Tree.isStrict] at hs
    rw [Tree.eval] at h
    obtain ⟨a, ha, h⟩ := bind_eq_ok_iff.1 h
    rw [Tree.columns, ← t.isSome_iff_of_eval hs ha]
    cases a with
    | none => cases h; rfl
    | some s =>
      obtain ⟨i, -, h⟩ := bind_eq_ok_iff.1 h
      obtain ⟨r, -, rfl⟩ := map_eq_ok_iff.1 h
      simp
  | .binary op left right, hs, v, h => by
    rw [Tree.isStrict, Bool.and_eq_true] at hs
    rw [Tree.eval] at h
    obtain ⟨a, ha, h⟩ := bind_eq_ok_iff.1 h
    obtain ⟨b, hb, h⟩ := bind_eq_ok_iff.1 h
    have hl := left.isSome_iff_of_eval hs.1 ha
    have hr := right.isSome_iff_of_eval hs.2 hb
    simp only [Tree.columns, List.mem_append, or_imp, forall_and, ← hl, ← hr]
    cases a with
    | none => cases h; simp
    | some s =>
      cases b with
      | none => cases h; simp
      | some s' =>
        obtain ⟨i, -, h⟩ := bind_eq_ok_iff.1 h
        obtain ⟨j, -, h⟩ := bind_eq_ok_iff.1 h
        obtain ⟨r, -, rfl⟩ := map_eq_ok_iff.1 h
        simp
  | .call f args, hs, v, h => by
    rw [Tree.isStrict, Bool.and_eq_true, decide_eq_true_eq] at hs
    rw [Tree.eval] at h
    · obtain ⟨vs, hvs, h⟩ := bind_eq_ok_iff.1 h
      rw [Tree.columns, ← isSome_iff_of_evalAll args hs.2 hvs]
      cases hp : allPresent vs with
      | none => rw [hp] at h; cases h; rfl
      | some present =>
        rw [hp] at h
        obtain ⟨r, -, rfl⟩ := map_eq_ok_iff.1 h
        simp
    · exact hs.1

/-- The same for several trees, whose values are to be all there. -/
theorem isSome_iff_of_evalAll {row : Row} :
    (ts : List Tree) → strictAll ts → {vs : List (Option Scalar)} → evalAll row ts = .ok vs →
      ((allPresent vs).isSome ↔ ∀ n ∈ columnsAll ts, (operand? row n).isSome)
  | [], _, vs, h => by
    rw [evalAll] at h
    cases h
    simp [allPresent, columnsAll]
  | t :: ts, hs, vs, h => by
    rw [strictAll, Bool.and_eq_true] at hs
    rw [evalAll] at h
    obtain ⟨v, hv, h⟩ := bind_eq_ok_iff.1 h
    obtain ⟨rest, hrest, h⟩ := bind_eq_ok_iff.1 h
    cases h
    have ht := t.isSome_iff_of_eval hs.1 hv
    have hts := isSome_iff_of_evalAll ts hs.2 hrest
    rw [isSome_allPresent_cons, Bool.and_eq_true, ht, hts]
    simp only [columnsAll_cons, List.mem_append, or_imp, forall_and]

end

end ShardRouting.Expression
