/-!
# Sorted names

Names in ascending order of their code points, each once.
-/

namespace ShardRouting.Text

/-- A sorted list of names with one more; a name that is there already is not added. -/
def insertSorted (name : String) : List String → List String
  | [] => [name]
  | n :: ns =>
    if name < n then name :: n :: ns
    else if name = n then n :: ns
    else n :: insertSorted name ns

/-- Names in ascending order, each once. -/
def sortedSet (names : List String) : List String :=
  names.foldl (fun sorted name => insertSorted name sorted) []

/-- The names of a sorted list with one more are those of the list and that one. -/
theorem mem_insertSorted {name n : String} {names : List String} :
    n ∈ insertSorted name names ↔ n = name ∨ n ∈ names := by
  induction names with
  | nil => simp [insertSorted]
  | cons m ms ih =>
    unfold insertSorted
    split
    · simp
    · split
      · next h => subst h; simp
      · simp only [List.mem_cons, ih]
        constructor
        · rintro (h | h | h) <;> simp [h]
        · rintro (h | h | h) <;> simp [h]

end ShardRouting.Text
