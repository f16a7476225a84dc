import ShardRouting.Document

/-!
# Dotted keys

A dotted key is a path into nested tables. The values that are written under dotted keys make up one
table; a table that a dotted key has opened goes on with further dotted keys, a value that is
written out does not. Main content: `splitUnder`, which takes apart what stands under one key, and
`nested?`.
-/

namespace ShardRouting.Toml

/-- Things under paths of keys, in the order in which they were written. -/
abbrev Paths (α : Type) := List (List String × α)

namespace Paths

/-- The number of things and keys. -/
def size {α : Type} (l : Paths α) : Nat :=
  (l.map fun p => p.1.length + 1).foldr (· + ·) 0

@[simp] theorem size_nil {α : Type} : size ([] : Paths α) = 0 := rfl

@[simp] theorem size_cons {α : Type} (p : List String × α) (l : Paths α) :
    size (p :: l) = p.1.length + 1 + size l := by
  simp [size]

theorem size_filter_le {α : Type} (p : List String × α → Bool) (l : Paths α) :
    size (l.filter p) ≤ size l := by
  induction l with
  | nil => exact Nat.le_refl _
  | cons a l ih =>
    rw [List.filter_cons, size_cons]
    split
    · rw [size_cons]
      omega
    · omega

theorem size_takeWhile_le {α : Type} (p : List String × α → Bool) (l : Paths α) :
    size (l.takeWhile p) ≤ size l := by
  induction l with
  | nil => exact Nat.le_refl _
  | cons a l ih =>
    rw [List.takeWhile_cons, size_cons]
    split
    · rw [size_cons]
      omega
    · exact Nat.zero_le _

theorem size_dropWhile_le {α : Type} (p : List String × α → Bool) (l : Paths α) :
    size (l.dropWhile p) ≤ size l := by
  induction l with
  | nil => exact Nat.le_refl _
  | cons a l ih =>
    rw [List.dropWhile_cons]
    split
    · rw [size_cons]
      omega
    · exact Nat.le_refl _

/-- The things under a first key, with their paths behind it, and the other things. -/
def splitUnder {α : Type} (key : String) : Paths α → Paths α × Paths α
  | [] => ([], [])
  | ([], a) :: l => ((splitUnder key l).1, ([], a) :: (splitUnder key l).2)
  | (k :: path, a) :: l =>
    if k = key then ((path, a) :: (splitUnder key l).1, (splitUnder key l).2)
    else ((splitUnder key l).1, (k :: path, a) :: (splitUnder key l).2)

/-- Taking apart adds nothing. -/
theorem size_splitUnder_le {α : Type} (key : String) (l : Paths α) :
    size (splitUnder key l).1 + size (splitUnder key l).2 ≤ size l := by
  fun_induction splitUnder key l <;> simp_all <;> omega

end Paths

/-- The table of values under paths. The value at a path of one key may not be entered by a longer
path behind it. -/
def nested? (l : Paths Document) : Option (List (String × Document)) :=
  match l with
  | [] => some []
  | ([], _) :: _ => none
  | (key :: path, d) :: rest =>
    let parts := Paths.splitUnder key rest
    let further := parts.1.filter fun p => !p.1.isEmpty
    if path = [] then
      if further.isEmpty then (nested? rest).map ((key, d) :: ·) else none
    else do
      let inner ← nested? ((path, d) :: further)
      let others ← nested? parts.2
      let again := (parts.1.filter fun p => p.1.isEmpty).map fun p => (key, p.2)
      some ((key, .table inner) :: (again ++ others))
  termination_by Paths.size l
  decreasing_by
    all_goals
      have := Paths.size_splitUnder_le key rest
      have := Paths.size_filter_le (fun p => !p.1.isEmpty) (Paths.splitUnder key rest).1
      simp only [Paths.size_cons, List.length_cons]
      omega

end ShardRouting.Toml
