import ShardRouting.Binary64.Layout
import ShardRouting.Checksum
import ShardRouting.Text.Blank
import ShardRouting.Text.Quoted
import ShardRouting.Text.Replacement

/-!
# Values

The values that statements bind, and the three views of them that routing rests on: the integer
view, the text, and the bytes that hash rules read. Main content: `Value.integer?`, `Value.sameKey`
and `Value.keyBytes`; `sameKey_comm` and `sameKey_self`.
-/

namespace ShardRouting

/-- A bound value. -/
inductive Value where
  /-- The absent value. -/
  | null
  /-- A truth value. -/
  | bool (b : Bool)
  /-- A signed integer. -/
  | int (i : Int64)
  /-- An unsigned integer. -/
  | uint (n : UInt64)
  /-- A floating-point number. -/
  | double (x : Binary64)
  /-- A text. -/
  | text (s : String)
  /-- A byte sequence. -/
  | bytes (bs : List UInt8)
  deriving DecidableEq, Repr, Inhabited

namespace Value

/-- Whether a value is the absent one. -/
def isNull : Value → Bool
  | .null => true
  | _ => false

/-- The integer view of a value. A floating-point integer out of range gives the nearest end of the
range; a text counts if it is a numeral between blanks. -/
def integer? : Value → Option Int64
  | .int i => some i
  | .uint n => Integer.narrow? n.toNat
  | .bool b => some (if b then 1 else 0)
  | .double x => x.integer?.map Integer.saturate
  | .text s => Integer.ofNumeral? (Text.trimmed Text.isBlank s.toList)
  | .null | .bytes _ => none

/-- The text of a value. -/
def toText : Value → String
  | .null => "NULL"
  | .bool b => if b then "true" else "false"
  | .int i => Integer.numeral i
  | .uint n => toString n.toNat
  | .double x => x.text .plain
  | .text s => s
  | .bytes bs => Text.ofBytes bs

/-- A value with its type, as messages show it. -/
def describe : Value → String
  | .null => "Null"
  | .bool b => "Bool(" ++ (if b then "true" else "false") ++ ")"
  | .int i => "Int(" ++ Integer.numeral i ++ ")"
  | .uint n => "UInt(" ++ toString n.toNat ++ ")"
  | .double x => "Double(" ++ x.text .tagged ++ ")"
  | .text s => "Text(" ++ Text.quoted s ++ ")"
  | .bytes bs => "Bytes([" ++ ", ".intercalate (bs.map fun b => toString b.toNat) ++ "])"

/-- Whether two values are the same key: by their integers where both have one, else by their
texts. -/
def sameKey (a b : Value) : Bool :=
  match a.integer?, b.integer? with
  | some i, some j => i == j
  | _, _ => a.toText == b.toText

/-- Every value is the same key as itself. -/
@[simp] theorem sameKey_self (a : Value) : a.sameKey a = true := by
  unfold sameKey
  cases a.integer? <;> simp

/-- Being the same key does not depend on the order of the two. -/
theorem sameKey_comm (a b : Value) : a.sameKey b = b.sameKey a := by
  unfold sameKey
  cases a.integer? <;> cases b.integer? <;> simp [Bool.beq_comm]

/-- The eight bytes of an integer, the most significant first. -/
def integerBytes (i : Int64) : List UInt8 :=
  ([56, 48, 40, 32, 24, 16, 8, 0] : List UInt64).map fun shift => (i.toUInt64 >>> shift).toUInt8

/-- The bytes of a text in UTF-8. -/
def textBytes (s : String) : List UInt8 :=
  s.toUTF8.data.toList

/-- The bytes that hash rules read: byte sequences as they are, other values but texts by their
integer where they have one, and else the text. -/
def keyBytes : Value → List UInt8
  | .bytes bs => bs
  | .text s => textBytes s
  | v =>
    match v.integer? with
    | some i => integerBytes i
    | none => textBytes v.toText

end Value

/-- The values that a row binds, by column. -/
abbrev Row := List (String × Value)

namespace Row

/-- The value of a column, where the row binds one. -/
def get? (row : Row) (column : String) : Option Value :=
  row.lookup column

/-- A row with a value bound to a column, in place of any before. -/
def insert (row : Row) (column : String) (v : Value) : Row :=
  (column, v) :: row.filter fun entry => entry.1 ≠ column

@[simp] theorem get?_insert_self (row : Row) (column : String) (v : Value) :
    (row.insert column v).get? column = some v := by
  simp [insert, get?]

end Row

end ShardRouting
