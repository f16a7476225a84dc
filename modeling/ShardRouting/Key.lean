import ShardRouting.Expression.Eval

/-!
# Partition keys

A rule turns the values of its columns into a key: the position of a part or a name of one. Here
are the keys, the reasons why there may be none, and the algorithms that settings refer to by name.
Main content: `Key`, `KeyFault` with its wording, `KeyAlgorithm` and `Registry`.
-/

namespace ShardRouting

/-- What a rule makes of the values of its columns. -/
inductive Key where
  /-- A position in the partition. -/
  | index (i : Int64)
  /-- The name of a shard or suffix. -/
  | name (s : String)
  deriving DecidableEq, Repr

/-- The text of a key. -/
def Key.toText : Key → String
  | .index i => Integer.numeral i
  | .name s => s

/-- Why values have no key. -/
inductive KeyFault where
  /-- All values are absent. -/
  | noValue
  /-- The first value is no integer. -/
  | notInteger (v : Value)
  /-- The modulus is not positive. -/
  | badModulus (m : Int64)
  /-- The value is not below the last bound. -/
  | aboveRange (i : Int64)
  /-- The expression has no value. -/
  | expression (e : Expression.EvalError)
  /-- The value of the expression is absent. -/
  | absent
  deriving DecidableEq, Repr

/-- The wording of a key fault. -/
def KeyFault.message : KeyFault → String
  | .noValue => "no sharding value bound"
  | .notInteger v => v.describe ++ " is not an integer"
  | .badModulus m => "invalid modulus " ++ Integer.numeral m
  | .aboveRange i => Integer.numeral i ++ " is above every range bound"
  | .expression e => e.message
  | .absent => "rule evaluated to NULL"

/-- An algorithm: the key of the values of the rule columns in their declared order, given the
number of parts and the arguments from settings. -/
def KeyAlgorithm : Type :=
  (partitionCount : Nat) → (args : List Int64) → List Value → Except KeyFault Key

namespace KeyAlgorithm

/-- The first value that is not absent. -/
def firstValue (values : List Value) : Except KeyFault Value :=
  match values.find? fun v => !v.isNull with
  | some v => .ok v
  | none => .error .noValue

/-- The integer of the first value that is not absent. -/
def firstInteger (values : List Value) : Except KeyFault Int64 := do
  let v ← firstValue values
  match v.integer? with
  | some i => .ok i
  | none => .error (.notInteger v)

/-- The modulus: the first argument, or the number of parts where there is none. -/
def modulus (partitionCount : Nat) (args : List Int64) : Except KeyFault Int64 :=
  let m := args.headD (Int64.ofNat partitionCount)
  if m ≤ 0 then .error (.badModulus m) else .ok m

/-- The least non-negative remainder of an integer, as a key. -/
def residue (i : Int) (m : Int64) : Key :=
  .index (Int64.ofInt (i % m.toInt))

/-- The remainder of the first value. -/
def remainder : KeyAlgorithm := fun partitionCount args values => do
  let i ← firstInteger values
  let m ← modulus partitionCount args
  .ok (residue i.toInt m)

/-- The remainder of the cyclic redundancy check of the first value. -/
def crc32Remainder : KeyAlgorithm := fun partitionCount args values => do
  let v ← firstValue values
  let m ← modulus partitionCount args
  .ok (residue (Checksum.crc32 v.keyBytes).toNat m)

/-- The remainder of the hash of the first value's text. -/
def hashRemainder : KeyAlgorithm := fun partitionCount args values => do
  let v ← firstValue values
  let m ← modulus partitionCount args
  .ok (residue (Checksum.textHash v.toText) m)

/-- The position of the first argument above the first value. -/
def range : KeyAlgorithm := fun _ args values => do
  let i ← firstInteger values
  match args.findIdx? fun upper => i < upper with
  | some position => .ok (.index (Int64.ofNat position))
  | none => .error (.aboveRange i)

end KeyAlgorithm

/-- Algorithms by name; the case of ASCII letters in names does not matter. -/
structure Registry where
  /-- The algorithms, the latest of a name first. -/
  entries : List (String × KeyAlgorithm)

namespace Registry

/-- A name in the form under which algorithms are kept. -/
def canonical (name : String) : String :=
  String.ofList (name.toList.map Char.toLower)

/-- No algorithms. -/
def empty : Registry := ⟨[]⟩

/-- The algorithms that are always there. -/
def builtin : Registry :=
  ⟨[("mod", KeyAlgorithm.remainder), ("crc32_mod", KeyAlgorithm.crc32Remainder),
    ("hash_mod", KeyAlgorithm.hashRemainder), ("range", KeyAlgorithm.range)]⟩

/-- The algorithm of a name. -/
def find? (r : Registry) (name : String) : Option KeyAlgorithm :=
  r.entries.lookup (canonical name)

/-- A registry with an algorithm under a name, in place of any before. -/
def register (r : Registry) (name : String) (a : KeyAlgorithm) : Registry :=
  ⟨(canonical name, a) :: r.entries⟩

@[simp] theorem find?_register_self (r : Registry) (name : String) (a : KeyAlgorithm) :
    (r.register name a).find? name = some a := by
  simp [register, find?]

end Registry

end ShardRouting
