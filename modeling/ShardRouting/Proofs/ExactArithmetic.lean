import Mathlib
import ShardRouting.Proofs.Grammar
import ShardRouting.Proofs.Outcome

/-!
# Exact arithmetic of expressions

The value of an expression once more, over integers of any size: an operator gives the integer that
it stands for, and only then is it asked whether 64 bits hold it. Evaluation agrees with this
reference, so that it never wraps around. One result in range is refused all the same: the least
integer leaves the remainder zero by minus one, but the quotient is out of range.

* `Divides`: quotient and remainder of a division toward zero; `Operator.Gives`: the integer that an
  operator stands for.
* `Tree.exact`: the reference, over `Exact` values and up to a `Refusal` of results in range.
* `Tree.exact_eq`: it agrees with the evaluation.
-/

namespace ShardRouting

namespace Integer

/-- An integer is in the range of 64 bits. -/
def Fits (i : Int) : Prop :=
  least ≤ i ∧ i ≤ greatest

instance (i : Int) : Decidable (Fits i) :=
  inferInstanceAs (Decidable (_ ∧ _))

theorem fits_toInt (w : Int64) : Fits w.toInt :=
  toInt_mem_range w

theorem narrow?_of_fits {i : Int} (h : Fits i) : narrow? i = some (Int64.ofInt i) :=
  if_pos h

theorem narrow?_of_not_fits {i : Int} (h : ¬ Fits i) : narrow? i = none :=
  if_neg h

end Integer

namespace Expression

open Integer (Fits)

/-! ### Division toward zero -/

/-- The quotient `q` and the remainder `r` of `a` by `b`: the remainder is smaller than the divisor
and does not have the other sign than the dividend. -/
structure Divides (a b q r : Int) : Prop where
  /-- The divisor as often as the quotient says, and the remainder, make up the dividend. -/
  eq : a = b * q + r
  /-- The remainder is smaller than the divisor. -/
  smaller : r.natAbs < b.natAbs
  /-- A dividend that is not negative leaves no negative remainder. -/
  nonneg : 0 ≤ a → 0 ≤ r
  /-- A dividend that is not positive leaves no positive remainder. -/
  nonpos : a ≤ 0 → r ≤ 0

variable {a b c q r : Int}

theorem Divides.divisor_ne_zero (h : Divides a b q r) : b ≠ 0 := by
  have hsmaller := h.smaller
  omega

/-- The truncating division is one toward zero. -/
theorem divides_tdiv (hb : b ≠ 0) : Divides a b (a.tdiv b) (a.tmod b) := by
  refine ⟨(Int.mul_tdiv_add_tmod a b).symm, ?_, fun ha => Int.tmod_nonneg b ha, fun ha => ?_⟩
  · rw [Int.natAbs_tmod]
    exact Nat.mod_lt _ (Int.natAbs_pos.2 hb)
  · have hneg := Int.tmod_nonneg b (Int.neg_nonneg_of_nonpos ha)
    rw [Int.neg_tmod] at hneg
    omega

/-- There is no other division toward zero. -/
theorem Divides.tdiv_eq (h : Divides a b q r) : a.tdiv b = q ∧ a.tmod b = r := by
  have hsmaller := h.smaller
  have heq : r + b * q = a := by rw [h.eq, add_comm]
  rcases Int.le_total 0 a with ha | ha
  · have hnonneg := h.nonneg ha
    exact (Int.tdiv_tmod_unique ha h.divisor_ne_zero).2 ⟨heq, hnonneg, by omega⟩
  · have hnonpos := h.nonpos ha
    exact (Int.tdiv_tmod_unique' ha h.divisor_ne_zero).2 ⟨heq, by omega, hnonpos⟩

/-! ### Operators on integers of any size -/

/-- An operator stands for an integer, given two. -/
def Operator.Gives : Operator → Int → Int → Int → Prop
  | .add, a, b, c => c = a + b
  | .sub, a, b, c => c = a - b
  | .mul, a, b, c => c = a * b
  | .div, a, b, c => ∃ r, Divides a b c r
  | .rem, a, b, c => ∃ q, Divides a b q c

/-- The integer that an operator stands for; a division by zero stands for none. -/
def Operator.result? : Operator → Int → Int → Option Int
  | .add, a, b => some (a + b)
  | .sub, a, b => some (a - b)
  | .mul, a, b => some (a * b)
  | .div, a, b => if b = 0 then none else some (a.tdiv b)
  | .rem, a, b => if b = 0 then none else some (a.tmod b)

theorem Operator.result?_eq_some_iff {op : Operator} : op.result? a b = some c ↔ op.Gives a b c := by
  cases op with
  | add | sub | mul => simp [result?, Gives, eq_comm]
  | div =>
    constructor
    · intro h
      obtain ⟨hb, rfl⟩ : b ≠ 0 ∧ a.tdiv b = c := by simpa [result?] using h
      exact ⟨a.tmod b, divides_tdiv hb⟩
    · rintro ⟨r, h⟩
      simp [result?, h.divisor_ne_zero, h.tdiv_eq.1]
  | rem =>
    constructor
    · intro h
      obtain ⟨hb, rfl⟩ : b ≠ 0 ∧ a.tmod b = c := by simpa [result?] using h
      exact ⟨a.tdiv b, divides_tdiv hb⟩
    · rintro ⟨q, h⟩
      simp [result?, h.divisor_ne_zero, h.tdiv_eq.2]

theorem Operator.result?_eq_none_iff {op : Operator} :
    op.result? a b = none ↔ (op = .div ∨ op = .rem) ∧ b = 0 := by
  cases op <;> simp [result?]

/-! ### The reference -/

/-- A value over integers of any size. -/
inductive Exact where
  /-- An integer. -/
  | int (i : Int)
  /-- A text. -/
  | text (s : String)
  deriving DecidableEq, Repr

namespace Exact

/-- The value that an operand is. -/
def ofScalar : Scalar → Exact
  | .int w => .int w.toInt
  | .text s => .text s

/-- The integer of a value; a text counts if it is a numeral between blanks, of a number in range. -/
def number : Exact → Except EvalError Int
  | .int i => .ok i
  | .text s =>
    match Integer.integer? (Text.trimmed Text.isBlank s.toList) with
    | some i => if Fits i then .ok i else .error (.notInteger s)
    | none => .error (.notInteger s)

/-- The text of a value. -/
def toText : Exact → String
  | .int i => toString i
  | .text s => s

/-- The bytes of a value: the eight of an integer, or those of a text. -/
def toBytes : Exact → List UInt8
  | .int i => Value.integerBytes (Int64.ofInt i)
  | .text s => Value.textBytes s

/-- An integer, where it is in range. -/
def checked (i : Int) : Except EvalError Exact :=
  if Fits i then .ok (.int i) else .error .overflow

end Exact

/-- Which results are refused as out of range though they are in range, by operator and operands. -/
abbrev Refusal := Operator → Int → Int → Bool

/-- No result is. -/
def Refusal.never : Refusal := fun _ _ _ => false

/-- The remainder of the least integer by minus one is, since the quotient is out of range. -/
def Refusal.leastByMinusOne : Refusal := fun op a b =>
  op = .rem && a = Integer.least && b = -1

/-- The value of an operator on two integers of any size. -/
def Operator.evaluate (refused : Refusal) (op : Operator) (a b : Int) : Except EvalError Exact :=
  match op.result? a b with
  | none => .error .divisionByZero
  | some c => if refused op a b then .error .overflow else Exact.checked c

/-- The value of a function. Neither a hash nor a checksum is asked whether it is in range. -/
def Function.exact (f : Function) (args : List Exact) : Except EvalError Exact :=
  match f, args with
  | .hash, [s] => .ok (.int (Checksum.textHash s.toText))
  | .crc32, [s] => .ok (.int (Checksum.crc32 s.toBytes).toNat)
  | .abs, [s] => do
    let i ← s.number
    Exact.checked |i|
  | .substr, [s, start] => do
    let start ← start.number
    .ok (.text (String.ofList (s.toText.toList.drop (start - 1).toNat)))
  | .substr, [s, start, length] => do
    let start ← start.number
    let length ← length.number
    .ok (.text (String.ofList ((s.toText.toList.drop (start - 1).toNat).take length.toNat)))
  | .concat, args => .ok (.text (String.join (args.map Exact.toText)))
  | _, _ => .error .argumentCount

mutual

/-- The value of a tree over integers of any size; `none` is the absent value. -/
def Tree.exact (refused : Refusal) (row : Row) : Tree → Except EvalError (Option Exact)
  | .literal s => .ok (some (.ofScalar s))
  | .column name => .ok (((row.get? name).bind Scalar.ofValue?).map .ofScalar)
  | .negate t => do
    match ← Tree.exact refused row t with
    | none => .ok none
    | some s =>
      let i ← s.number
      some <$> Exact.checked (-i)
  | .binary op left right => do
    let a ← Tree.exact refused row left
    let b ← Tree.exact refused row right
    match a, b with
    | some a, some b =>
      let i ← a.number
      let j ← b.number
      some <$> op.evaluate refused i j
    | _, _ => .ok none
  | .call .coalesce args => exactFirst refused row args
  | .call f args => do
    match ← exactAll refused row args with
    | some present => some <$> f.exact present
    | none => .ok none

/-- The values of trees if all of them are there, or the first error. -/
def exactAll (refused : Refusal) (row : Row) : List Tree → Except EvalError (Option (List Exact))
  | [] => .ok (some [])
  | t :: ts => do
    let v ← Tree.exact refused row t
    let vs ← exactAll refused row ts
    .ok (v.bind fun s => vs.map (s :: ·))

/-- The first value among trees that is there. -/
def exactFirst (refused : Refusal) (row : Row) : List Tree → Except EvalError (Option Exact)
  | [] => .ok none
  | t :: ts => do
    match ← Tree.exact refused row t with
    | some s => .ok (some s)
    | none => exactFirst refused row ts

end

/-! ### Agreement on operands -/

theorem Exact.checked_eq (i : Int) : Exact.checked i = Exact.ofScalar <$> Scalar.ofExact i := by
  by_cases hi : Fits i
  · simp [checked, Scalar.ofExact, hi, Integer.narrow?_of_fits hi, ofScalar,
      Integer.toInt_ofInt hi.1 hi.2]
  · simp [checked, Scalar.ofExact, hi, Integer.narrow?_of_not_fits hi]

theorem Exact.number_ofScalar (s : Scalar) :
    (Exact.ofScalar s).number = Int64.toInt <$> s.toInteger := by
  cases s with
  | int w => rfl
  | text s =>
    simp only [ofScalar, number, Scalar.toInteger, Integer.ofNumeral?]
    rcases Integer.integer? (Text.trimmed Text.isBlank s.toList) with _ | i
    · rfl
    · by_cases hi : Fits i
      · simp [hi, Integer.narrow?_of_fits hi, Integer.toInt_ofInt hi.1 hi.2]
      · simp [hi, Integer.narrow?_of_not_fits hi]

@[simp] theorem Exact.toText_ofScalar (s : Scalar) : (Exact.ofScalar s).toText = s.toText := by
  cases s <;> rfl

@[simp] theorem Exact.toBytes_ofScalar (s : Scalar) : (Exact.ofScalar s).toBytes = s.toBytes := by
  cases s with
  | int w => simp [ofScalar, toBytes, Scalar.toBytes]
  | text s => rfl

@[simp] theorem Exact.ofScalar_text (s : String) : Exact.ofScalar (.text s) = .text s := rfl

theorem Exact.ofScalar_ofNat {n : Nat} (h : n < 2 ^ 63) :
    Exact.ofScalar (.int (Int64.ofNat n)) = .int n := by
  rw [ofScalar, Int64.toInt_ofNat_of_lt h]

/-- Among divisions in range, only that of the least integer by minus one has a quotient that is too
great. -/
theorem quotient_gt_iff (ha : Fits a) (hb : b ≠ 0) :
    a.tdiv b > Integer.greatest ↔ a = Integer.least ∧ b = -1 := by
  simp only [Fits, Integer.least, Integer.greatest] at ha ⊢
  constructor
  · intro hgreat
    have hquotient : (a.tdiv b).natAbs = a.natAbs / b.natAbs := Int.natAbs_tdiv a b
    have hsmall : b.natAbs < 2 := by
      by_contra hlarge
      have hhalf : a.natAbs / b.natAbs ≤ a.natAbs / 2 :=
        Nat.div_le_div_left (by omega) (by omega)
      omega
    obtain rfl | rfl : b = 1 ∨ b = -1 := by omega
    · rw [Int.tdiv_one] at hgreat
      omega
    · rw [Int.tdiv_neg, Int.tdiv_one] at hgreat
      exact ⟨by omega, rfl⟩
  · rintro ⟨rfl, rfl⟩
    decide

/-- Operators agree with the integers that they stand for, but for the one remainder. -/
theorem Operator.evaluate_toInt (op : Operator) (i j : Int64) :
    op.evaluate .leastByMinusOne i.toInt j.toInt = Exact.ofScalar <$> op.apply i j := by
  have hzero : j.toInt = 0 ↔ j = 0 := by rw [← Int64.toInt_inj, Int64.toInt_zero]
  cases op with
  | add | sub | mul =>
    simp [evaluate, result?, apply, Refusal.leastByMinusOne, Exact.checked_eq]
  | div =>
    by_cases hj : j = 0
    · simp [evaluate, result?, apply, hj]
    · simp [evaluate, result?, apply, Refusal.leastByMinusOne, Exact.checked_eq, hzero, hj]
  | rem =>
    by_cases hj : j = 0
    · simp [evaluate, result?, apply, hj]
    · have hgreat := quotient_gt_iff (Integer.fits_toInt i) (mt hzero.1 hj)
      by_cases hrefused : i.toInt = Integer.least ∧ j.toInt = -1
      · rw [apply, if_neg hj, if_pos (hgreat.2 hrefused)]
        simp [evaluate, result?, Refusal.leastByMinusOne, hrefused]
      · have hquotient := mt hgreat.1 hrefused
        simp [evaluate, result?, apply, Refusal.leastByMinusOne, Exact.checked_eq, hzero, hj,
          hrefused, hquotient]

/-- Functions agree with their exact values. -/
theorem Function.exact_ofScalar (f : Function) (args : List Scalar) :
    f.exact (args.map .ofScalar) = Exact.ofScalar <$> f.apply args := by
  cases f with
  | hash =>
    rcases args with _ | ⟨s, _ | _⟩
    · rfl
    · have hle := Checksum.textHash_le s.toText
      have hvalue := Exact.ofScalar_ofNat (n := Checksum.textHash s.toText) (by omega)
      simp [Function.exact, Function.apply, hvalue]
    · rfl
  | crc32 =>
    rcases args with _ | ⟨s, _ | _⟩
    · rfl
    · have hlt := (Checksum.crc32 s.toBytes).toNat_lt
      have hvalue := Exact.ofScalar_ofNat (n := (Checksum.crc32 s.toBytes).toNat) (by omega)
      simp [Function.exact, Function.apply, hvalue]
    · rfl
  | abs =>
    rcases args with _ | ⟨s, _ | _⟩
    · rfl
    · simp [Function.exact, Function.apply, Exact.number_ofScalar, Exact.checked_eq]
    · rfl
  | substr =>
    rcases args with _ | ⟨s, _ | ⟨start, _ | ⟨length, _ | _⟩⟩⟩
    · rfl
    · rfl
    · simp [Function.exact, Function.apply, Exact.number_ofScalar, textFrom]
    · simp [Function.exact, Function.apply, Exact.number_ofScalar, textFrom]
    · rfl
  | concat =>
    have htexts : Exact.toText ∘ Exact.ofScalar = Scalar.toText := funext Exact.toText_ofScalar
    simp [Function.exact, Function.apply, htexts]
  | coalesce => rfl

/-! ### Agreement on trees -/

mutual

/-- Evaluation agrees with the reference. -/
theorem Tree.exact_eq {row : Row} :
    (t : Tree) → t.exact .leastByMinusOne row = Option.map Exact.ofScalar <$> t.eval row
  | .literal s => by rw [Tree.exact, Tree.eval]; rfl
  | .column name => by rw [Tree.exact, Tree.eval]; rfl
  | .negate t => by
    rw [Tree.exact, Tree.eval, t.exact_eq, bind_map_left, map_bind]
    refine bind_congr fun v => ?_
    rcases v with _ | s
    · rfl
    · simp [Exact.number_ofScalar, Exact.checked_eq]
  | .binary op left right => by
    rw [Tree.exact, Tree.eval, left.exact_eq, right.exact_eq]
    simp only [bind_map_left, map_bind]
    refine bind_congr fun u => bind_congr fun v => ?_
    rcases u with _ | a
    · rfl
    · rcases v with _ | b
      · rfl
      · simp [Exact.number_ofScalar, Operator.evaluate_toInt]
  | .call f args => by
    by_cases hf : f = .coalesce
    · rw [hf, Tree.exact, Tree.eval, exactFirst_eq args]
    · rw [Tree.exact, Tree.eval, exactAll_eq args, bind_map_left, map_bind]
      · refine bind_congr fun vs => ?_
        rcases allPresent vs with _ | present
        · rfl
        · simp [Function.exact_ofScalar]
      all_goals exact hf

/-- The same for the values of several trees. -/
theorem exactAll_eq {row : Row} :
    (ts : List Tree) → exactAll .leastByMinusOne row ts =
      (fun vs => (allPresent vs).map (List.map Exact.ofScalar)) <$> evalAll row ts
  | [] => by rw [exactAll, evalAll]; rfl
  | t :: ts => by
    rw [exactAll, evalAll, t.exact_eq, exactAll_eq ts]
    simp only [bind_map_left, map_bind]
    refine bind_congr fun v => bind_congr fun vs => ?_
    rcases v with _ | s
    · rfl
    · rcases hvs : allPresent vs with _ | present
      all_goals simp [allPresent, hvs]

/-- The same for the first value that is there. -/
theorem exactFirst_eq {row : Row} :
    (ts : List Tree) → exactFirst .leastByMinusOne row ts =
      Option.map Exact.ofScalar <$> firstPresent row ts
  | [] => by rw [exactFirst, firstPresent]; rfl
  | t :: ts => by
    rw [exactFirst, firstPresent, t.exact_eq, exactFirst_eq ts, bind_map_left, map_bind]
    refine bind_congr fun v => ?_
    rcases v with _ | s
    · rfl
    · rfl

end

end Expression

end ShardRouting
