import Mathlib.Data.List.Find
import ShardRouting.Proofs.Columns
import ShardRouting.Table

/-!
# What decides where a row goes

A rule makes its key of the values of certain columns, and a router looks at these and at the
columns that need a value. Rows that agree there go to the same place, or fail for the same reason.

* `Rule.reads`: the columns of a rule's key; `Rule.undeclared`: those that the rule does not
  declare, which only an expression can have.
* `Router.positions_congr`, `Router.route_congr`: the two-run statements.
* `Rule.consulted`: the columns that decide the key of one row, of which a row may lose all others
  (`Rule.key_of_consulted`).
-/

namespace ShardRouting

open Expression

namespace Row

/-- The value of a column on a row; where the row binds none it is the absent one. -/
def value (row : Row) (column : String) : Value :=
  (row.get? column).getD .null

/-- A binding does not touch other columns. -/
theorem get?_insert_of_ne {row : Row} {column n : String} {v : Value} (h : n ≠ column) :
    (row.insert column v).get? n = row.get? n := by
  have hb : (n == column) = false := by simpa using h
  unfold insert get?
  rw [List.lookup_cons, hb]
  induction row with
  | nil => rfl
  | cons entry rest ih =>
    by_cases he : entry.1 = column
    · have hne : (n == entry.1) = false := by simpa [he] using h
      rw [List.filter_cons_of_neg (by simpa using he), List.lookup_cons, hne]
      exact ih
    · rw [List.filter_cons_of_pos (by simpa using he), List.lookup_cons, List.lookup_cons]
      cases n == entry.1 with
      | true => rfl
      | false => exact ih

/-- What a row binds after a binding was added. -/
theorem get?_insert (row : Row) (column n : String) (v : Value) :
    (row.insert column v).get? n = if n = column then some v else row.get? n := by
  split
  · next h => rw [h, get?_insert_self]
  · next h => exact get?_insert_of_ne h

/-- The values of a row after a binding was added. -/
theorem value_insert (row : Row) (column n : String) (v : Value) :
    (row.insert column v).value n = if n = column then v else row.value n := by
  rw [value, get?_insert]
  split <;> rfl

/-- A placeholder reads the value of its column. -/
theorem operand?_eq (row : Row) (n : String) :
    operand? row n = Scalar.ofValue? (row.value n) := by
  unfold operand? value
  cases row.get? n <;> rfl

end Row

/-- Only the absent value counts as absent. -/
theorem Value.eq_null_of_isNull {v : Value} (h : v.isNull) : v = .null := by
  cases v <;> first | rfl | cases h

namespace Rule

variable {r : Rule} {row row' : Row}

/-- The columns whose values a rule makes its key of. -/
def reads (r : Rule) : List String :=
  match r.kind with
  | .algorithm _ _ => r.columns.map RuleColumn.name
  | .expression e => e.root.columns

/-- Whether a rule declares a column under exactly this name. -/
def declares (r : Rule) (name : String) : Bool :=
  r.columns.any fun c => c.name == name

/-- The columns that a rule reads without declaring them. -/
def undeclared (r : Rule) : List String :=
  r.reads.filter fun name => !r.declares name

theorem declares_iff {name : String} :
    r.declares name ↔ ∃ c ∈ r.columns, c.name = name := by
  simp [declares]

/-- A name is that of a column where its compared form is declared. -/
theorem isColumn_eq (r : Rule) (name : String) :
    r.isColumn name = r.declares (Identifier.normalize name) := rfl

theorem declares_of_mem_requiredColumns {c : RuleColumn} (h : c ∈ r.requiredColumns) :
    r.declares c.name :=
  declares_iff.2 ⟨c, (List.mem_filter.1 h).1, rfl⟩

theorem mem_undeclared_iff {name : String} :
    name ∈ r.undeclared ↔ name ∈ r.reads ∧ ¬ r.declares name := by
  simp [undeclared]

/-- An algorithm is given the declared columns and nothing else. -/
theorem undeclared_of_algorithm {run : KeyAlgorithm} {args : List Int64}
    (h : r.kind = .algorithm run args) : r.undeclared = [] := by
  refine List.eq_nil_iff_forall_not_mem.2 fun n hn => ?_
  obtain ⟨hreads, hdecl⟩ := mem_undeclared_iff.1 hn
  rw [reads, h] at hreads
  obtain ⟨c, hc, rfl⟩ := List.mem_map.1 hreads
  exact hdecl (declares_iff.2 ⟨c, hc, rfl⟩)

/-- Rows with the same values in the columns that a rule reads have the same key. -/
theorem key_congr (h : ∀ n ∈ r.reads, row'.value n = row.value n) (partitionCount : Nat) :
    r.key partitionCount row' = r.key partitionCount row := by
  unfold key
  rcases hk : r.kind with ⟨run, args⟩ | e
  · have hvalues : (r.columns.map fun c => (row'.get? c.name).getD .null) =
        r.columns.map fun c => (row.get? c.name).getD .null :=
      List.map_congr_left fun c hc => h c.name (by
        rw [reads, hk]; exact List.mem_map_of_mem hc)
    exact congrArg (run partitionCount args) hvalues
  · have heval : e.eval row' = e.eval row := e.root.eval_congr fun n hn => by
      rw [Row.operand?_eq, Row.operand?_eq, h n (by rw [reads, hk]; exact hn)]
    simp only [heval]

/-! ### Rows that bind less -/

/-- A rule whose algorithm, if it has one, is built in. -/
def IsBuiltin (r : Rule) : Prop :=
  ∀ run args, r.kind = .algorithm run args → ∃ name, Registry.builtin.find? name = some run

/-- There are four built-in algorithms. -/
theorem builtin_cases {name : String} {run : KeyAlgorithm}
    (hrun : Registry.builtin.find? name = some run) :
    run = KeyAlgorithm.remainder ∨ run = KeyAlgorithm.crc32Remainder ∨
      run = KeyAlgorithm.hashRemainder ∨ run = KeyAlgorithm.range := by
  obtain ⟨before, after, hentries, -⟩ := List.lookup_eq_some_iff.1 hrun
  have hmem : (Registry.canonical name, run) ∈ Registry.builtin.entries :=
    hentries ▸ List.mem_append_right _ List.mem_cons_self
  simp only [Registry.builtin, List.mem_cons, Prod.mk.injEq, List.not_mem_nil, or_false] at hmem
  obtain ⟨-, h⟩ | ⟨-, h⟩ | ⟨-, h⟩ | ⟨-, h⟩ := hmem
  · exact Or.inl h
  · exact Or.inr (Or.inl h)
  · exact Or.inr (Or.inr (Or.inl h))
  · exact Or.inr (Or.inr (Or.inr h))

/-- The built-in algorithms look at the first value that is there, and at nothing else. -/
theorem builtin_congr {name : String} {run : KeyAlgorithm}
    (hrun : Registry.builtin.find? name = some run) (partitionCount : Nat) (args : List Int64)
    {values values' : List Value}
    (h : (values'.find? fun v => !v.isNull) = values.find? fun v => !v.isNull) :
    run partitionCount args values' = run partitionCount args values := by
  have hfirst : KeyAlgorithm.firstValue values' = KeyAlgorithm.firstValue values := by
    rw [KeyAlgorithm.firstValue, KeyAlgorithm.firstValue, h]
  have hinteger : KeyAlgorithm.firstInteger values' = KeyAlgorithm.firstInteger values := by
    rw [KeyAlgorithm.firstInteger, KeyAlgorithm.firstInteger, hfirst]
  rcases builtin_cases hrun with rfl | rfl | rfl | rfl
  · rw [KeyAlgorithm.remainder, KeyAlgorithm.remainder, hinteger]
  · rw [KeyAlgorithm.crc32Remainder, KeyAlgorithm.crc32Remainder, hfirst]
  · rw [KeyAlgorithm.hashRemainder, KeyAlgorithm.hashRemainder, hfirst]
  · rw [KeyAlgorithm.range, KeyAlgorithm.range, hinteger]

/-- The columns that decide the key of a row: for an algorithm the first one with a value, for an
expression all that stand in it. -/
def consulted (r : Rule) (row : Row) : List String :=
  match r.kind with
  | .algorithm _ _ =>
    ((r.columns.map RuleColumn.name).find? fun n => !(row.value n).isNull).toList
  | .expression e => e.root.columns

/-- Where values are taken from a row, the first one with a value stays if that one is kept. -/
theorem find?_value_eq (names : List String)
    (hless : ∀ n, row'.value n = row.value n ∨ (row'.value n).isNull)
    (hfirst : ∀ n ∈ names.find? fun n => !(row.value n).isNull, row'.value n = row.value n) :
    ((names.map row'.value).find? fun v => !v.isNull) =
      (names.map row.value).find? fun v => !v.isNull := by
  induction names with
  | nil => rfl
  | cons n names ih =>
    rw [List.map_cons, List.map_cons, List.find?_cons, List.find?_cons]
    by_cases hn : (row.value n).isNull
    · have hn' : (row'.value n).isNull := (hless n).elim (fun h => h ▸ hn) id
      rw [hn, hn']
      exact ih fun m hm => hfirst m (by rw [List.find?_cons, hn]; exact hm)
    · rw [Bool.not_eq_true] at hn
      have hkept : row'.value n = row.value n := hfirst n (by rw [List.find?_cons, hn]; rfl)
      rw [hkept, hn]
      rfl

/-- A rule that is accepted with the built-in algorithms has the same key on a row that binds less,
if no column is lost that decides it. -/
theorem key_of_consulted (hbuiltin : r.IsBuiltin)
    (hless : ∀ n, row'.value n = row.value n ∨ (row'.value n).isNull)
    (h : ∀ n ∈ r.consulted row, row'.value n = row.value n) (partitionCount : Nat) :
    r.key partitionCount row' = r.key partitionCount row := by
  rcases hk : r.kind with ⟨run, args⟩ | e
  · obtain ⟨name, hrun⟩ := hbuiltin run args hk
    have hfirst := find?_value_eq (r.columns.map RuleColumn.name) hless fun n hn =>
      h n (by rw [consulted, hk]; exact Option.mem_toList.2 hn)
    rw [List.map_map, List.map_map] at hfirst
    simp only [key, hk]
    exact builtin_congr hrun partitionCount args hfirst
  · exact key_congr (fun n hn => h n (by rw [consulted, hk]; rwa [reads, hk] at hn)) _

end Rule

namespace Router

variable {r : Router} {row row' : Row}

/-- Rows with the same values in the columns that the rule reads go to the same parts. -/
theorem positionsOf_congr (h : ∀ n ∈ r.rule.reads, row'.value n = row.value n) :
    r.positionsOf row' = r.positionsOf row := by
  unfold positionsOf
  rw [Rule.key_congr h]

/-- No column misses a value exactly where each that needs one has one. -/
theorem missingColumn?_eq_none_iff :
    r.missingColumn? row = none ↔
      ∀ c ∈ r.rule.requiredColumns, (row.value c.name).isNull = false := by
  simp only [missingColumn?, List.find?_eq_none, Bool.not_eq_true]
  rfl

/-- On a row with a value in each column that needs one, only the key decides. -/
theorem positions_of_required
    (h : ∀ c ∈ r.rule.requiredColumns, (row.value c.name).isNull = false) (table : String) :
    r.positions table row = r.positionsOf row := by
  rw [positions, missingColumn?_eq_none_iff.2 h]

/-- Rows with the same values in the columns that are read or need a value go to the same parts. -/
theorem positions_congr (hreads : ∀ n ∈ r.rule.reads, row'.value n = row.value n)
    (hreq : ∀ c ∈ r.rule.requiredColumns, row'.value c.name = row.value c.name)
    (table : String) : r.positions table row' = r.positions table row := by
  have hmissing : r.missingColumn? row' = r.missingColumn? row :=
    List.find?_congr fun c hc => congrArg Value.isNull (hreq c hc)
  rw [positions, positions, hmissing, positionsOf_congr hreads]

/-- A row that has a place has a value in each column that needs one. -/
theorem required_of_positions {table : String} {positions : List Nat}
    (h : r.positions table row = .ok positions) :
    ∀ c ∈ r.rule.requiredColumns, (row.value c.name).isNull = false := by
  unfold Router.positions at h
  split at h
  · cases h
  · next hm => exact missingColumn?_eq_none_iff.1 hm

/-- Where a row has its place, a row that binds less has it too, if no column is lost that needs a
value or decides the key. -/
theorem positions_of_consulted (hbuiltin : r.rule.IsBuiltin)
    (hless : ∀ n, row'.value n = row.value n ∨ (row'.value n).isNull)
    (hreq : ∀ c ∈ r.rule.requiredColumns, row'.value c.name = row.value c.name)
    (h : ∀ n ∈ r.rule.consulted row, row'.value n = row.value n) (table : String) :
    r.positions table row' = r.positions table row := by
  have hmissing : r.missingColumn? row' = r.missingColumn? row :=
    List.find?_congr fun c hc => congrArg Value.isNull (hreq c hc)
  rw [positions, positions, hmissing, positionsOf, positionsOf,
    Rule.key_of_consulted hbuiltin hless h]

/-- The same for the physical tables. -/
theorem route_congr (hreads : ∀ n ∈ r.rule.reads, row'.value n = row.value n)
    (hreq : ∀ c ∈ r.rule.requiredColumns, row'.value c.name = row.value c.name)
    (table : String) : r.route table row' = r.route table row := by
  rw [route, route, positions_congr hreads hreq]

end Router

/-- A row of a routed table goes where its router sends it, if that is one place. -/
theorem Catalog.routeRow_routed {c : Catalog} {table : String} {t : Table} {r : Router}
    (hfind : c.find table = .ok t) (hrouted : t.placement = .routed r) (row : Row) :
    c.routeRow table row = r.route t.name row >>= fun targets =>
      if targets.length = 1 then .ok { targets }
      else .error (.targetCount t.name targets.length) := by
  rw [routeRow, hfind]
  simp only [bind, Except.bind, hrouted]

end ShardRouting
