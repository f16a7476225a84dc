import Mathlib
import ShardRouting.Proofs.Columns
import ShardRouting.Rule

/-!
# Absent values in expressions

An expression without `coalesce` cannot make up for a value that is not there: its own value is
absent exactly where one of its columns has none. So a rule by such an expression finds a key for
complete rows only.

* `Row.Lacks`: a row has no value in a column.
* `Rule.exists_key_iff`: a rule by an expression finds a key exactly where the expression has a
  value that is there.
* `Expression.eval_absent_iff`: when the value of an expression without `coalesce` is absent, and
  for which rows a rule by it finds a key.
-/

namespace ShardRouting

/-- A row has no value in a column: it does not bind it, or binds the absent value to it. -/
def Row.Lacks (row : Row) (column : String) : Prop :=
  row.get? column = none ∨ row.get? column = some .null

instance (row : Row) (column : String) : Decidable (row.Lacks column) :=
  inferInstanceAs (Decidable (_ ∨ _))

namespace Expression

/-- Every value but the absent one is an operand. -/
theorem Scalar.ofValue?_eq_none_iff {v : Value} : Scalar.ofValue? v = none ↔ v = .null := by
  constructor
  · intro h
    unfold Scalar.ofValue? at h
    split at h
    · rfl
    · simp at h
    · simp at h
    · split at h <;> simp at h
  · intro h
    rw [h, Scalar.ofValue?]

/-- A placeholder reads nothing exactly where the row has no value in its column. -/
theorem operand?_eq_none_iff {row : Row} {n : String} : operand? row n = none ↔ row.Lacks n := by
  rw [operand?, Row.Lacks, Option.bind_eq_none_iff]
  constructor
  · intro h
    rcases hget : row.get? n with _ | v
    · exact Or.inl rfl
    · rw [Scalar.ofValue?_eq_none_iff.1 (h v hget)]
      exact Or.inr rfl
  · rintro (hnone | hnull) v hv
    · rw [hnone] at hv
      simp at hv
    · rw [hnull] at hv
      exact Scalar.ofValue?_eq_none_iff.2 (Option.some.inj hv).symm

end Expression

open Expression

/-- A rule by an expression finds a key exactly where the expression has a value that is there. -/
theorem Rule.exists_key_iff {r : Rule} {e : Expression} (hkind : r.kind = .expression e)
    (count : Nat) (row : Row) :
    (∃ key, r.key count row = .ok key) ↔ ∃ s, e.eval row = .ok (some s) := by
  unfold Rule.key
  rw [hkind]
  rcases heval : e.eval row with fault | _ | i | s
  all_goals simp [heval]

namespace Expression

/-- Outside `coalesce`, a value is absent exactly on the rows that lack one in a column of the
expression. -/
theorem Tree.eq_none_iff_of_eval {t : Tree} (hstrict : t.isStrict) {row : Row}
    {v : Option Scalar} (heval : t.eval row = .ok v) :
    v = none ↔ ∃ n ∈ t.columns, row.Lacks n := by
  rw [← Option.not_isSome_iff_eq_none, t.isSome_iff_of_eval hstrict heval]
  simp [← operand?_eq_none_iff]

/-- Where an expression without `coalesce` has a value at all, that value is absent exactly on the
rows that lack a value in one of its columns. A rule by such an expression finds a key exactly for
the rows that lack none and on which the evaluation succeeds. -/
theorem eval_absent_iff {e : Expression} (hstrict : e.root.isStrict) (row : Row) :
    (∀ v, e.eval row = .ok v → (v = none ↔ ∃ n ∈ e.root.columns, row.Lacks n)) ∧
    ∀ (r : Rule) (count : Nat), r.kind = .expression e →
      ((∃ key, r.key count row = .ok key) ↔
        (∃ v, e.eval row = .ok v) ∧ ∀ n ∈ e.root.columns, ¬ row.Lacks n) := by
  have habsent : ∀ v, e.eval row = .ok v → (v = none ↔ ∃ n ∈ e.root.columns, row.Lacks n) := by
    intro v heval
    exact Tree.eq_none_iff_of_eval hstrict heval
  refine ⟨habsent, ?_⟩
  intro r count hkind
  rw [Rule.exists_key_iff hkind]
  constructor
  · rintro ⟨s, heval⟩
    refine ⟨⟨some s, heval⟩, ?_⟩
    intro n hn hlacks
    have hnone := (habsent (some s) heval).2 ⟨n, hn, hlacks⟩
    simp at hnone
  · rintro ⟨⟨v, heval⟩, hcomplete⟩
    have hne : v ≠ none := by
      intro hnone
      obtain ⟨n, hn, hlacks⟩ := (habsent v heval).1 hnone
      exact hcomplete n hn hlacks
    obtain ⟨s, hs⟩ := Option.ne_none_iff_exists'.1 hne
    exact ⟨s, hs ▸ heval⟩

/-- An expression that nests an optional argument in two calls. -/
def piece : Expression where
  source := "concat('_', substr($\x7bregion\x7d, 1, -$\x7blength\x7d))"
  root :=
    .call .concat [.literal (.text "_"),
      .call .substr [.column "region", .literal (.int 1), .negate (.column "length")]]

/-- On a row that lacks the optional argument the value of this expression is absent; a rule by it
finds a key for a row that lacks nothing. -/
theorem eval_absent_iff_piece :
    parse piece.source = .ok piece ∧ piece.root.isStrict ∧
      piece.eval [("region", .text "eu"), ("length", .null)] = .ok none ∧
      (∃ n ∈ piece.root.columns, Row.Lacks [("region", .text "eu"), ("length", .null)] n) ∧
      ∃ key, Rule.key ⟨[{ name := "region" }], .expression piece⟩ 2
        [("region", .text "eu"), ("length", .int (-1))] = .ok key := by
  have hstrict : piece.root.isStrict := by decide
  have heval : piece.eval [("region", .text "eu"), ("length", .null)] = .ok none := by decide
  refine ⟨by cbv, hstrict, heval, ?_, ?_⟩
  · exact ((eval_absent_iff hstrict _).1 none heval).1 rfl
  · apply ((eval_absent_iff hstrict _).2 _ 2 rfl).2
    exact ⟨⟨some (.text "_e"), by decide +kernel⟩, by decide⟩

end Expression

end ShardRouting
