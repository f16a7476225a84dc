/-!
# Machine integers

Narrowing of unbounded integers to 64 bits, and the decimal numerals of 64-bit integers. Main
statement: `narrow?_eq_some_iff`, narrowing keeps exactly the integers in range.
-/

namespace ShardRouting.Integer

/-- A 64-bit integer stands for the integer that it denotes. -/
instance coeInt64 : Coe Int64 Int := ⟨Int64.toInt⟩

/-- An integer stands for the 64-bit one that is the same modulo the size of a word. -/
instance intCastInt64 : IntCast Int64 := ⟨Int64.ofInt⟩

/-- The least 64-bit integer. -/
def least : Int := -9223372036854775808

/-- The greatest 64-bit integer. -/
def greatest : Int := 9223372036854775807

/-- The 64-bit integer with the same value, where there is one. -/
def narrow? (i : Int) : Option Int64 :=
  if least ≤ i ∧ i ≤ greatest then some (Int64.ofInt i) else none

/-- The 64-bit integer nearest to an integer. -/
def saturate (i : Int) : Int64 :=
  Int64.ofInt (max least (min i greatest))

/-- An integer in range is what the 64-bit integer made from it denotes. -/
theorem toInt_ofInt {i : Int} (hleast : least ≤ i) (hgreatest : i ≤ greatest) :
    (Int64.ofInt i).toInt = i := by
  simp only [least, greatest] at hleast hgreatest
  exact Int64.toInt_ofInt_of_le (by omega) (by omega)

/-- What a 64-bit integer denotes is in range. -/
theorem toInt_mem_range (w : Int64) : least ≤ w.toInt ∧ w.toInt ≤ greatest := by
  have h₁ := w.le_toInt
  have h₂ := w.toInt_lt
  simp only [least, greatest]
  omega

section Signs

variable {w : Int64}

theorem toInt_pos : 0 < w.toInt ↔ 0 < w := by
  rw [Int64.lt_iff_toInt_lt, Int64.toInt_zero]

theorem toInt_nonneg : 0 ≤ w.toInt ↔ 0 ≤ w := by
  rw [Int64.le_iff_toInt_le, Int64.toInt_zero]

theorem toInt_nonpos : w.toInt ≤ 0 ↔ w ≤ 0 := by
  rw [Int64.le_iff_toInt_le, Int64.toInt_zero]

theorem toNatClampNeg_pos : 0 < w.toNatClampNeg ↔ 0 < w := by
  rw [← toInt_pos, Int64.toNatClampNeg, Int.lt_toNat, Int.natCast_zero]

/-- A positive 64-bit integer denotes a natural number. -/
theorem natCast_toNatClampNeg (h : 0 < w) : (w.toNatClampNeg : Int) = w.toInt :=
  Int.toNat_of_nonneg (Int.le_of_lt (toInt_pos.2 h))

end Signs

/-- Narrowing gives exactly the 64-bit integer with the same value. -/
theorem narrow?_eq_some_iff {i : Int} {w : Int64} : narrow? i = some w ↔ w.toInt = i := by
  constructor
  · intro h
    unfold narrow? at h
    split at h
    · next hr =>
      cases h
      exact toInt_ofInt hr.1 hr.2
    · cases h
  · rintro rfl
    rw [narrow?, if_pos (toInt_mem_range w), Int64.ofInt_toInt]

/-- The value of a decimal digit. -/
def digitValue (c : Char) : Nat := c.toNat - '0'.toNat

/-- The number that a list of decimal digits denotes. -/
def ofDigits (cs : List Char) : Nat :=
  cs.foldl (fun n c => n * 10 + digitValue c) 0

/-- The number of an unsigned decimal numeral: one digit or more, and nothing else. -/
def natural? (cs : List Char) : Option Nat :=
  if cs ≠ [] ∧ cs.all Char.isDigit then some (ofDigits cs) else none

/-- The integer of a decimal numeral with at most one sign in front. -/
def integer? : List Char → Option Int
  | '-' :: cs => (natural? cs).map fun n => -(n : Int)
  | '+' :: cs => (natural? cs).map Int.ofNat
  | cs => (natural? cs).map Int.ofNat

/-- The 64-bit integer of a decimal numeral, where it is in range. -/
def ofNumeral? (cs : List Char) : Option Int64 :=
  (integer? cs).bind narrow?

/-- The value of a digit, of either case, in a radix of at most sixteen. -/
def digitIn? (radix : Nat) (c : Char) : Option Nat :=
  let value : Option Nat :=
    if '0' ≤ c ∧ c ≤ '9' then some (c.toNat - '0'.toNat)
    else if 'a' ≤ c ∧ c ≤ 'f' then some (c.toNat - 'a'.toNat + 10)
    else if 'A' ≤ c ∧ c ≤ 'F' then some (c.toNat - 'A'.toNat + 10)
    else none
  value.filter fun n => decide (n < radix)

/-- The number that a list of digits denotes in a radix of at most sixteen. -/
def ofDigitsIn? (radix : Nat) (cs : List Char) : Option Nat :=
  (cs.mapM (digitIn? radix)).map fun ds => ds.foldl (fun n d => n * radix + d) 0

/-- The decimal numeral of a 64-bit integer. -/
def numeral (w : Int64) : String :=
  toString w.toInt

end ShardRouting.Integer
