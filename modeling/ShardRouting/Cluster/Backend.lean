import ShardRouting.Cursor
import ShardRouting.Datasource.Dialect

/-!
# Backends

The databases behind datasources, as far as a simulation needs them: how long each answers after,
what it answers, and the log of the calls that it got.
-/

namespace ShardRouting

/-- How a database answers. -/
structure Behaviour where
  /-- The error on opening a connection. -/
  connectError : Option SqlError := none
  /-- The error on a statement. -/
  failure : Option SqlError := none
  /-- The error on a validation. -/
  validateError : Option SqlError := none
  /-- The milliseconds until a connection is open. -/
  connectDelay : Nat := 0
  /-- The milliseconds until a statement is answered. -/
  delay : Nat := 0
  /-- The milliseconds until a validation is answered. -/
  validateDelay : Nat := 0
  /-- Whether a validation crashes. -/
  validatePanic : Bool := false
  /-- The names of the columns that a query gives, where its text and values do not matter. -/
  columns : List String := []
  /-- The rows that a query gives, where its text and values do not matter. -/
  rows : List (List Value) := []
  /-- What a query of a text with a list of values gives, up to a number of rows, where zero means no
  limit. -/
  results : String → List Value → Nat → ResultSet := fun _ _ maxRows =>
    ⟨columns, if maxRows = 0 then rows else rows.take maxRows⟩
  /-- How many rows a write changes, where its text and values do not matter; below `2 ^ 64` where
  they are counted in a word. -/
  affected : Nat := 1
  /-- How many rows a write of a text with a list of values changes. -/
  changes : String → List Value → Nat := fun _ _ => affected

/-- A database with the number of connections that were opened to it. -/
structure Backend where
  /-- How it answers. -/
  behaviour : Behaviour := {}
  /-- How many connections were opened. -/
  built : Nat := 0

/-- How connections run batches and validations. -/
inductive ConnectionStyle where
  /-- Batches and validations are calls of their own. -/
  | native
  /-- A batch is one write after another, a validation a query for one row. -/
  | composed
  deriving DecidableEq, Repr

/-- What a call asks of a database. -/
inductive CallKind where
  /-- Rows. -/
  | query
  /-- A write. -/
  | execute
  /-- A write with several lists of values. -/
  | batch
  /-- Whether it answers. -/
  | validate
  deriving DecidableEq, Repr

/-- The name of a kind of call. -/
def CallKind.name : CallKind → String
  | .query => "query"
  | .execute => "execute"
  | .batch => "batch"
  | .validate => "validate"

/-- A call that a database got. -/
structure Call where
  /-- The datasource. -/
  uid : String
  /-- The number of the connection. -/
  connection : Nat
  /-- What was asked. -/
  kind : CallKind
  /-- The text of the statement, where there was one. -/
  sql : Option String
  /-- The lists of values. -/
  params : List (List Value)
  /-- Whether the call succeeded. -/
  succeeded : Bool

end ShardRouting
