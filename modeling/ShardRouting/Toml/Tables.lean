import ShardRouting.Toml.Paths

/-!
# Tables under headers

A header opens the table at its path, or a further table of the list at its path. Headers may come
in any order, but a table is opened once at most, a list before anything below it, and no path is
both. Repeated keys are no matter of headers. Main content: `assembled?`.
-/

namespace ShardRouting.Toml

/-- What stands under one header. -/
structure Section where
  /-- Whether the header opens a further table of a list. -/
  inList : Bool
  /-- The entries of the table. -/
  entries : List (String × Document)

/-- Whether a section opens a further table of the list that its path has led to. -/
def opensNext (p : List String × Section) : Bool :=
  p.1.isEmpty && p.2.inList

mutual

/-- The table of sections, by their paths from it. -/
def assembled? (l : Paths Section) : Option (List (String × Document)) :=
  match l with
  | [] => some []
  | ([], s) :: rest =>
    if s.inList || rest.any (fun p => p.1.isEmpty) then none
    else (assembled? rest).map (s.entries ++ ·)
  | (key :: path, s) :: rest =>
    let parts := Paths.splitUnder key rest
    let child : Option Document :=
      if opensNext (path, s) then (elements? s.entries parts.1).map .list
      else (assembled? ((path, s) :: parts.1)).map .table
    child.bind fun d => (assembled? parts.2).map ((key, d) :: ·)
  termination_by 2 * Paths.size l
  decreasing_by
    all_goals
      try have := Paths.size_splitUnder_le key rest
      simp only [Paths.size_cons, List.length_cons]
      omega

/-- The tables of a list: one with the entries at hand and all sections up to the next header of the
list, and those behind. -/
def elements? (entries : List (String × Document)) (l : Paths Section) :
    Option (List Document) :=
  let own := l.takeWhile fun p => !opensNext p
  (assembled? (([], ⟨false, entries⟩) :: own)).bind fun first =>
    match _h : l.dropWhile fun p => !opensNext p with
    | [] => some [.table first]
    | (_, s) :: rest => (elements? s.entries rest).map (.table first :: ·)
  termination_by 2 * Paths.size l + 3
  decreasing_by
    · have := Paths.size_takeWhile_le (fun p => !opensNext p) l
      simp only [Paths.size_cons, List.length_nil]
      omega
    · have := Paths.size_dropWhile_le (fun p => !opensNext p) l
      rw [_h] at this
      simp only [Paths.size_cons] at this
      omega

end

end ShardRouting.Toml
