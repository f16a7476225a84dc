/-!
# Repetitions

Finding the first element of a list that equals one before it. Main statement:
`firstRepeated?_eq_none_iff`, there is none exactly where all elements are distinct.
-/

namespace ShardRouting

variable {α : Type} [DecidableEq α]

/-- The first element that equals one before it or one that was seen already. -/
def firstRepeatedAfter? (seen : List α) : List α → Option α
  | [] => none
  | a :: as => if a ∈ seen then some a else firstRepeatedAfter? (a :: seen) as

/-- The first element that equals one before it. -/
def firstRepeated? (as : List α) : Option α :=
  firstRepeatedAfter? [] as

theorem firstRepeatedAfter?_eq_none_iff {seen as : List α} :
    firstRepeatedAfter? seen as = none ↔ as.Nodup ∧ ∀ a ∈ as, a ∉ seen := by
  induction as generalizing seen with
  | nil => simp [firstRepeatedAfter?]
  | cons a as ih =>
    unfold firstRepeatedAfter?
    split
    · next h => simp [h]
    · next h =>
      rw [ih, List.nodup_cons]
      simp only [List.mem_cons, not_or, forall_eq_or_imp]
      constructor
      · rintro ⟨hn, hd⟩
        exact ⟨⟨fun ha => (hd a ha).1 rfl, hn⟩, h, fun b hb => (hd b hb).2⟩
      · rintro ⟨⟨ha, hn⟩, _, hd⟩
        exact ⟨hn, fun b hb => ⟨fun e => ha (e ▸ hb), hd b hb⟩⟩

/-- No element is repeated exactly where all are distinct. -/
theorem firstRepeated?_eq_none_iff {as : List α} : firstRepeated? as = none ↔ as.Nodup := by
  simp [firstRepeated?, firstRepeatedAfter?_eq_none_iff]

end ShardRouting
