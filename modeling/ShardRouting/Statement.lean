import ShardRouting.Identifier
import ShardRouting.Value

/-!
# Statements

A statement on a logical table as it comes from a parser: the clauses as texts with `?` for bound
values, the values themselves, and the conditions on columns that routing may use. Main content:
`Statement`, `Statement.rowValues` and the parameter lists of its clauses.
-/

namespace ShardRouting

/-- What a statement does. -/
inductive StatementKind where
  /-- Reads rows. -/
  | select
  /-- Adds rows. -/
  | insert
  /-- Changes rows. -/
  | update
  /-- Removes rows. -/
  | delete
  /-- Adds rows or changes those with the same key. -/
  | merge
  deriving DecidableEq, Repr

namespace StatementKind

/-- The name of a kind. -/
def name : StatementKind → String
  | .select => "select"
  | .insert => "insert"
  | .update => "update"
  | .delete => "delete"
  | .merge => "merge"

/-- The kinds. -/
def all : List StatementKind := [.select, .insert, .update, .delete, .merge]

/-- The kind of a name. -/
def ofName? (s : String) : Option StatementKind :=
  all.find? fun k => k.name == s

/-- Whether a kind answers with rows. -/
def isQuery (k : StatementKind) : Bool :=
  k = .select

end StatementKind

/-- One cell of a row to be written. -/
inductive Cell where
  /-- The default of the column. -/
  | useDefault
  /-- A value. -/
  | value (v : Value)
  deriving DecidableEq, Repr

/-- A clause: its text and the values bound in it. -/
structure Clause where
  /-- The text. -/
  sql : String
  /-- The values, in the order of their places in the text. -/
  params : List Value
  deriving Repr

/-- What a condition asks of a column. -/
inductive Restriction where
  /-- The column equals a value. -/
  | equals (v : Value)
  /-- The column is one of several values. -/
  | oneOf (vs : List Value)
  /-- The column lies between two bounds, each of which may be open. -/
  | between (low high : Option Value)
  deriving Repr

/-- A condition on a column; the rows of a statement meet all its conditions. -/
structure Condition where
  /-- The column. -/
  column : String
  /-- What is asked of it. -/
  restriction : Restriction
  deriving Repr

/-- A statement on a logical table. -/
structure Statement where
  /-- What the statement does. -/
  kind : StatementKind
  /-- Its text as it was written, for messages only. -/
  sql : String := ""
  /-- The logical table. -/
  table : String
  /-- The name of the table within the statement. -/
  «alias» : Option String := none
  /-- The columns that are written. -/
  columns : List String := []
  /-- The rows that are written; an update has its assigned values in the first. -/
  rows : List (List Cell) := []
  /-- The columns by which rows are the same. -/
  keyColumns : List String := []
  /-- What is read. -/
  selectList : Option String := none
  /-- The condition on rows. -/
  condition : Option Clause := none
  /-- The order of the rows. -/
  orderBy : Option String := none
  /-- How many rows are read or changed. -/
  limit : Option Clause := none
  /-- The conditions that routing may use. -/
  conditions : List Condition := []
  deriving Repr

namespace Statement

/-- The values of the condition. -/
def conditionParams (s : Statement) : List Value :=
  s.condition.elim [] Clause.params

/-- The values of the limit. -/
def limitParams (s : Statement) : List Value :=
  s.limit.elim [] Clause.params

/-- The values of the condition, then those of the limit. -/
def clauseParams (s : Statement) : List Value :=
  s.conditionParams ++ s.limitParams

/-- The values that cells bind to columns: defaults and absent values bind nothing, and of two
cells for one column the later counts. -/
def bindCells (columns : List String) (cells : List Cell) : Row :=
  (columns.zip cells).foldl
    (fun row (column, cell) =>
      match cell with
      | .value v => if v.isNull then row else Row.insert row (Identifier.normalize column) v
      | .useDefault => row)
    []

/-- The values that a row of the statement binds; a row that is not there binds none. -/
def rowValues (s : Statement) (i : Nat) : Row :=
  match s.rows[i]? with
  | some cells => bindCells s.columns cells
  | none => []

/-- The text of the statement in messages. -/
def displaySql (s : Statement) : String :=
  if s.sql = "" then s.kind.name ++ " " ++ s.table else s.sql

end Statement

end ShardRouting
