import ShardRouting.Value

/-!
# Cursors

The rows of several results one behind the other, up to a limit. Main content: `Cursor.ofResults`,
`Cursor.next` and `Cursor.toRows`.
-/

namespace ShardRouting

/-- A result of one fragment. -/
structure ResultSet where
  /-- The names of the columns. -/
  columns : List String
  /-- The rows. -/
  rows : List (List Value)
  deriving DecidableEq, Repr

/-- A position in the rows of several results. -/
structure Cursor where
  /-- The names of the columns. -/
  columns : List String
  /-- The rows that are left of each result. -/
  pending : List (List (List Value))
  /-- How many rows are given in all; zero means no limit. -/
  maxRows : Nat
  /-- How many rows were given. -/
  fetched : Nat := 0
  deriving Repr

namespace Cursor

/-- The cursor in front of results; the columns are those of the first result that has any. -/
def ofResults (results : List ResultSet) (maxRows : Nat) : Cursor :=
  { columns := ((results.find? fun r => !r.columns.isEmpty).map ResultSet.columns).getD []
    pending := results.map ResultSet.rows
    maxRows }

/-- The first row of several lists, and the lists without it. -/
def popRow : List (List (List Value)) → Option (List Value × List (List (List Value)))
  | [] => none
  | [] :: rest => popRow rest
  | (row :: rows) :: rest => some (row, rows :: rest)

/-- The next row within the limit, and the cursor behind it. -/
def next (c : Cursor) : Option (List Value) × Cursor :=
  if c.maxRows ≠ 0 ∧ c.maxRows ≤ c.fetched then (none, c)
  else
    match popRow c.pending with
    | some (row, pending) => (some row, { c with pending, fetched := c.fetched + 1 })
    | none => (none, { c with pending := [] })

/-- The rows that are left, without regard to the limit. -/
def remaining (c : Cursor) : List (List Value) :=
  c.pending.flatten

/-- The first row of several lists is that of their concatenation. -/
theorem popRow_eq (lists : List (List (List Value))) :
    popRow lists = none ∧ lists.flatten = [] ∨
      ∃ row rest, popRow lists = some (row, rest) ∧ lists.flatten = row :: rest.flatten := by
  induction lists with
  | nil => exact Or.inl ⟨rfl, rfl⟩
  | cons rows rest ih =>
    cases rows with
    | nil => simpa [popRow] using ih
    | cons row rows => exact Or.inr ⟨row, rows :: rest, rfl, rfl⟩

/-- All rows that a cursor gives, as far as a number of steps, and the cursor behind them. -/
def drain (c : Cursor) : Nat → List (List Value) × Cursor
  | 0 => ([], c)
  | fuel + 1 =>
    match c.next with
    | (none, c) => ([], c)
    | (some row, c) =>
      let (rows, c) := c.drain fuel
      (row :: rows, c)

/-- All rows that a cursor gives, and the cursor behind them. -/
def toRows (c : Cursor) : List (List Value) × Cursor :=
  c.drain (c.remaining.length + 1)

end Cursor

end ShardRouting
