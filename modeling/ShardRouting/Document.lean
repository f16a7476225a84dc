/-!
# Documents

Trees of data as configuration files hold them, and reading records from them. A table keeps every
entry that was written, also two of one name; a record refuses two values for a field that it knows
and passes over fields that it does not know. A record is written as a table with the names of its
fields, or as a list of their values in order. Main content: `Document`, `Record.of?` and the
readers `Record.required`, `Record.defaulted` and `Record.optional`.
-/

namespace ShardRouting

/-- A tree of data. -/
inductive Document where
  /-- No value. -/
  | absent
  /-- A text. -/
  | text (s : String)
  /-- An integer. -/
  | integer (i : Int)
  /-- A number that is not written as an integer. -/
  | real
  /-- A truth value. -/
  | truth (b : Bool)
  /-- A date, a time or both. -/
  | moment
  /-- Values in order. -/
  | list (items : List Document)
  /-- Values by name. -/
  | table (entries : List (String × Document))
  /-- A table of one entry without content, which may also stand for its name alone. -/
  | choice (name : String) (content : Document)
  deriving Repr, Inhabited

namespace Document

/-- The text of a document that is one. -/
def text? : Document → Option String
  | .text s => some s
  | _ => none

/-- The name that a document chooses from a set of names. -/
def word? : Document → Option String
  | .text s => some s
  | .choice name _ => some name
  | _ => none

/-- The truth value of a document that is one. -/
def truth? : Document → Option Bool
  | .truth b => some b
  | _ => none

/-- The 64-bit integer of a document that is one. -/
def int64? : Document → Option Int64
  | .integer i =>
    if -9223372036854775808 ≤ i ∧ i ≤ 9223372036854775807 then some (Int64.ofInt i) else none
  | _ => none

/-- The natural number below two to the power 64 of a document that is one. -/
def natural? : Document → Option Nat
  | .integer i => if 0 ≤ i ∧ i < 18446744073709551616 then some i.toNat else none
  | _ => none

/-- The values of a list, where each can be read. -/
def list? {α : Type} (read : Document → Option α) : Document → Option (List α)
  | .list items => items.mapM read
  | _ => none

end Document

/-- The values of the fields of a record, by name. -/
structure Record where
  /-- The values, each with the name of its field. -/
  entries : List (String × Document)
  /-- Whether the values were written in order, without names. -/
  inOrder : Bool

namespace Record

/-- The record of a table that has no two values for one of the named fields. -/
def named? (fields : List String) (entries : List (String × Document)) : Option Record :=
  if fields.all fun name => decide ((entries.filter (·.1 = name)).length ≤ 1) then
    some ⟨entries, false⟩
  else none

/-- The record of the named fields that a document is. A moment is a record without any of them. -/
def of? (fields : List String) : Document → Option Record
  | .table entries => named? fields entries
  | .choice name content => named? fields [(name, content)]
  | .moment => some ⟨[], false⟩
  | .list items => if items.length ≤ fields.length then some ⟨fields.zip items, true⟩ else none
  | _ => none

/-- The value of a field. -/
def get? (r : Record) (name : String) : Option Document :=
  r.entries.lookup name

/-- A field that must be there. -/
def required {α : Type} (r : Record) (name : String) (read : Document → Option α) : Option α :=
  (r.get? name).bind read

/-- A field that has a value where it is not there. -/
def defaulted {α : Type} (r : Record) (name : String) (read : Document → Option α)
    (otherwise : α) : Option α :=
  match r.get? name with
  | some d => read d
  | none => some otherwise

/-- A field that need not be there; in order it may only be left without value. -/
def optional {α : Type} (r : Record) (name : String) (read : Document → Option α) :
    Option (Option α) :=
  match r.get? name with
  | some .absent => some none
  | some d => (read d).map some
  | none => if r.inOrder then none else some none

end Record

end ShardRouting
