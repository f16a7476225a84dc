import ShardRouting.Expression.Tree
import ShardRouting.Value

/-!
# Evaluating rule expressions

The value of an expression on a row. An absent operand makes every operator and function absent but
`coalesce`; integers are exact, and a result out of range is an error. Main content: `Tree.eval`,
`EvalError` with its wording, and the complete `Expression`.
-/

namespace ShardRouting.Expression

/-- Why an expression has no value on a row. -/
inductive EvalError where
  /-- An operand is a text that is no integer. -/
  | notInteger (text : String)
  /-- A result is out of range. -/
  | overflow
  /-- A divisor is zero. -/
  | divisionByZero
  /-- A function was given a number of arguments that it does not take. -/
  | argumentCount
  deriving DecidableEq, Repr

/-- The wording of an evaluation error. -/
def EvalError.message : EvalError → String
  | .notInteger text => Text.quoted text ++ " is not an integer"
  | .overflow => "integer overflow"
  | .divisionByZero => "division by zero"
  | .argumentCount => "wrong number of arguments"

namespace Scalar

/-- The operand that a bound value is; the absent value is none. -/
def ofValue? : Value → Option Scalar
  | .null => none
  | .text s => some (.text s)
  | .bytes bs => some (.text (Text.ofBytes bs))
  | v =>
    match v.integer? with
    | some i => some (.int i)
    | none => some (.text v.toText)

/-- The integer of an operand; a text counts if it is a numeral between blanks. -/
def toInteger : Scalar → Except EvalError Int64
  | .int i => .ok i
  | .text s =>
    match Integer.ofNumeral? (Text.trimmed Text.isBlank s.toList) with
    | some i => .ok i
    | none => .error (.notInteger s)

/-- The text of an operand. -/
def toText : Scalar → String
  | .int i => Integer.numeral i
  | .text s => s

/-- The bytes of an operand: the eight of an integer, or those of a text. -/
def toBytes : Scalar → List UInt8
  | .int i => Value.integerBytes i
  | .text s => Value.textBytes s

/-- The operand with an exact integer value, if that is in range. -/
def ofExact (i : Int) : Except EvalError Scalar :=
  match Integer.narrow? i with
  | some w => .ok (.int w)
  | none => .error .overflow

end Scalar

/-- The value of an operator on two integers. -/
def Operator.apply (op : Operator) (a b : Int64) : Except EvalError Scalar :=
  match op with
  | .add => Scalar.ofExact (a.toInt + b.toInt)
  | .sub => Scalar.ofExact (a.toInt - b.toInt)
  | .mul => Scalar.ofExact (a.toInt * b.toInt)
  | .div => if b = 0 then .error .divisionByZero else Scalar.ofExact (a.toInt.tdiv b.toInt)
  | .rem =>
    if b = 0 then .error .divisionByZero
    else if (a.toInt.tdiv b.toInt) > Integer.greatest then .error .overflow
    else Scalar.ofExact (a.toInt.tmod b.toInt)

/-- The piece of a text from a position on, counted from one; earlier positions mean the first. -/
def textFrom (s : String) (start : Int64) : List Char :=
  s.toList.drop (start.toInt - 1).toNat

/-- The value of a function on arguments that are all present. -/
def Function.apply (f : Function) (args : List Scalar) : Except EvalError Scalar :=
  match f, args with
  | .hash, [s] => .ok (.int (Int64.ofNat (Checksum.textHash s.toText)))
  | .crc32, [s] => .ok (.int (Int64.ofNat (Checksum.crc32 s.toBytes).toNat))
  | .abs, [s] => do
    let i ← s.toInteger
    Scalar.ofExact i.toInt.natAbs
  | .substr, [s, start] => do
    let start ← start.toInteger
    .ok (.text (String.ofList (textFrom s.toText start)))
  | .substr, [s, start, length] => do
    let start ← start.toInteger
    let length ← length.toInteger
    .ok (.text (String.ofList ((textFrom s.toText start).take length.toInt.toNat)))
  | .concat, args => .ok (.text (String.join (args.map Scalar.toText)))
  | _, _ => .error .argumentCount

/-- The values themselves, where none is absent. -/
def allPresent : List (Option Scalar) → Option (List Scalar)
  | [] => some []
  | none :: _ => none
  | some s :: values => (allPresent values).map (s :: ·)

mutual

/-- The value of a tree on a row; `none` is the absent value. -/
def Tree.eval (row : Row) : Tree → Except EvalError (Option Scalar)
  | .literal s => .ok (some s)
  | .column name => .ok ((row.get? name).bind Scalar.ofValue?)
  | .negate t => do
    match ← Tree.eval row t with
    | none => .ok none
    | some s =>
      let i ← s.toInteger
      some <$> Scalar.ofExact (-i.toInt)
  | .binary op left right => do
    let a ← Tree.eval row left
    let b ← Tree.eval row right
    match a, b with
    | some a, some b =>
      let i ← a.toInteger
      let j ← b.toInteger
      some <$> op.apply i j
    | _, _ => .ok none
  | .call .coalesce args => firstPresent row args
  | .call f args => do
    let values ← evalAll row args
    match allPresent values with
    | some present => some <$> f.apply present
    | none => .ok none

/-- The values of trees on a row, or the first error. -/
def evalAll (row : Row) : List Tree → Except EvalError (List (Option Scalar))
  | [] => .ok []
  | t :: ts => do
    let v ← Tree.eval row t
    let vs ← evalAll row ts
    .ok (v :: vs)

/-- The first value among trees that is not absent; the trees behind it are not evaluated. -/
def firstPresent (row : Row) : List Tree → Except EvalError (Option Scalar)
  | [] => .ok none
  | t :: ts => do
    match ← Tree.eval row t with
    | some s => .ok (some s)
    | none => firstPresent row ts

end

end Expression

open Expression in
/-- A rule expression: its source and the tree that it denotes. -/
structure Expression where
  /-- The text of the expression. -/
  source : String
  /-- The tree of the expression. -/
  root : Tree

namespace Expression

/-- The expression that a text denotes. -/
def parse (source : String) : Except ParseError Expression :=
  match Token.scan source.toList with
  | .error e => .error (.scan e)
  | .ok [] => .error .empty
  | .ok tokens =>
    match Tree.parse tokens with
    | .error e => .error e
    | .ok root => .ok ⟨source, root⟩

/-- The value of an expression on a row; `none` is the absent value. -/
def eval (e : Expression) (row : Row) : Except EvalError (Option Scalar) :=
  e.root.eval row

end Expression

end ShardRouting
