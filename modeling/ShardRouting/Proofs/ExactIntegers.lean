import Mathlib
import ShardRouting.Proofs.NormalNames
import ShardRouting.Proofs.WrittenTokens

/-!
# Exact integers

What number a value denotes, and what its integer view keeps of it. A floating-point number denotes
the fraction that its three fields say, a text the integer that it spells between blanks. The
integer view is that number, if it is an integer in range; only of floating-point numbers that
denote integers out of range there is one, too, which is the nearest end of the range.

* `Binary64.number?`: the number of a floating-point number, by its fields.
* `Binary64.integer?_eq_some_iff`: its integer view is exact as long as integers are unbounded.
* `Integer.Spells`, `Value.Denotes`: the numbers of texts and of values.
* `Value.integer?_exact_or_end`: the integer view of a value is its number or an end of the range;
  different numbers are the same key at one end of the range only.
-/

namespace ShardRouting.Binary64

variable {x : Binary64} {q : ℚ}

/-! ### Numbers of floating-point numbers -/

/-- The field of the sign, which is one for negative numbers. -/
def signField (x : Binary64) : Nat := x.bits.toNat / 2 ^ 63

/-- The field of the exponent, eleven bits. -/
def exponentField (x : Binary64) : Nat := x.bits.toNat / 2 ^ 52 % 2 ^ 11

/-- The field of the fraction, 52 bits. -/
def fractionField (x : Binary64) : Nat := x.bits.toNat % 2 ^ 52

/-- The number that a floating-point number denotes, unless it is an infinity or no number. Where
the field of the exponent is zero, the digit in front of the point is zero and not one. -/
def number? (x : Binary64) : Option ℚ :=
  if x.exponentField = 2047 then none
  else if x.exponentField = 0 then
    some ((-1) ^ x.signField * (x.fractionField / 2 ^ 52 * 2 ^ (-1022 : ℤ)))
  else
    some ((-1) ^ x.signField *
      ((1 + x.fractionField / 2 ^ 52) * 2 ^ ((x.exponentField : ℤ) - 1023)))

/-- What the fields of a floating-point number say. -/
theorem classify_eq (x : Binary64) : x.classify =
    if x.exponentField = 2047 then
      if x.fractionField = 0 then .infinite (decide (x.signField = 1)) else .nan
    else if x.exponentField = 0 then .finite (decide (x.signField = 1)) x.fractionField (-1074)
    else
      .finite (decide (x.signField = 1)) (2 ^ 52 + x.fractionField)
        ((x.exponentField : ℤ) - 1075) := rfl

/-- The sign of a number. -/
theorem neg_one_pow_signField (x : Binary64) :
    (-1 : ℚ) ^ x.signField = if decide (x.signField = 1) then -1 else 1 := by
  have hlt := x.bits.toNat_lt
  have hsign : x.signField = 0 ∨ x.signField = 1 := by
    unfold signField
    omega
  rcases hsign with h | h <;> simp [h]

/-- The last of 52 bits behind a point has a place 52 below that of the point. -/
theorem div_mul_two_zpow (a : ℚ) (e : ℤ) : a / 2 ^ 52 * 2 ^ e = a * 2 ^ (e - 52) := by
  have hsplit : (2 : ℚ) ^ e = 2 ^ (e - 52) * 2 ^ 52 := by
    rw [← zpow_natCast, ← zpow_add₀ two_ne_zero]
    congr 1
    omega
  rw [hsplit]
  field_simp

/-- The number of a finite floating-point number is its significand in the place of its exponent. -/
theorem number?_eq (x : Binary64) : x.number? =
    match x.classify with
    | .finite negative significand exponent =>
      some ((if negative then -1 else 1) * (significand * 2 ^ exponent))
    | _ => none := by
  rw [number?, neg_one_pow_signField, classify_eq]
  by_cases hinfinite : x.exponentField = 2047
  · rw [if_pos hinfinite, if_pos hinfinite]
    split_ifs <;> rfl
  rw [if_neg hinfinite, if_neg hinfinite]
  by_cases hsubnormal : x.exponentField = 0
  · rw [if_pos hsubnormal, if_pos hsubnormal, div_mul_two_zpow]
    norm_num only
  · rw [if_neg hsubnormal, if_neg hsubnormal]
    have hone : (1 + (x.fractionField : ℚ) / 2 ^ 52) = (2 ^ 52 + x.fractionField) / 2 ^ 52 := by
      field_simp
    have hplace : (x.exponentField : ℤ) - 1023 - 52 = x.exponentField - 1075 := by omega
    rw [hone, div_mul_two_zpow, hplace]
    push_cast
    rfl

/-- The magnitude is the significand in the place of the exponent, if that is an integer. -/
theorem magnitude?_eq_some_iff {significand n : Nat} {exponent : Int} :
    magnitude? significand exponent = some n ↔ (significand * 2 ^ exponent : ℚ) = n := by
  unfold magnitude?
  simp only [Nat.pow_eq]
  split
  · next h =>
    obtain ⟨k, rfl⟩ := Int.eq_ofNat_of_zero_le h
    rw [Int.toNat_natCast, Option.some_inj, zpow_natCast]
    norm_cast
  · next h =>
    obtain ⟨k, rfl⟩ : ∃ k : Nat, exponent = -k := ⟨exponent.natAbs, by omega⟩
    have hpos : 0 < 2 ^ k := Nat.pow_pos (by decide)
    rw [Int.neg_neg, Int.toNat_natCast, zpow_neg, zpow_natCast,
      mul_inv_eq_iff_eq_mul₀ (by positivity)]
    norm_cast
    split
    · next hmod =>
      rw [Option.some_inj, Nat.div_eq_iff_eq_mul_left hpos (Nat.dvd_of_mod_eq_zero hmod)]
    · next hmod =>
      simp only [reduceCtorEq, false_iff]
      rintro rfl
      exact hmod (Nat.mul_mod_left n _)

/-- A magnitude with a sign, as a fraction. -/
theorem cast_signed (negative : Bool) (n : Nat) :
    (signed negative n : ℚ) = (if negative then -1 else 1) * n := by
  cases negative <;> simp [signed]

/-- The integer view of a floating-point number is its number, if that is an integer. -/
theorem integer?_eq_some_iff {i : Int} : x.integer? = some i ↔ x.number? = some (i : ℚ) := by
  rw [number?_eq, integer?]
  cases x.classify with
  | infinite => simp
  | nan => simp
  | finite negative significand exponent =>
    simp only [Option.map_eq_some_iff, Option.some_inj, magnitude?_eq_some_iff]
    constructor
    · rintro ⟨n, hn, rfl⟩
      rw [hn, cast_signed]
    · intro h
      have hnonneg : (0 : ℚ) ≤ significand * 2 ^ exponent := by positivity
      have habs : (i.natAbs : ℚ) = significand * 2 ^ exponent := by
        rw [Nat.cast_natAbs, Int.cast_abs, ← h, abs_mul, abs_of_nonneg hnonneg]
        cases negative <;> simp
      refine ⟨i.natAbs, habs.symm, ?_⟩
      rw [← habs, ← cast_signed] at h
      exact Int.cast_injective h

end ShardRouting.Binary64

namespace ShardRouting.Integer

variable {cs : List Char} {i : Int} {w : Int64}

/-! ### Ends of the range -/

/-- The integer in range that is nearest to one. -/
theorem toInt_saturate (i : Int) : (saturate i).toInt = max least (min i greatest) := by
  rw [saturate, least, greatest]
  exact Int64.toInt_ofInt_of_le (by omega) (by omega)

/-- An integer in range is nearest to itself. -/
theorem toInt_saturate_of_le (hlow : least ≤ i) (hhigh : i ≤ greatest) :
    (saturate i).toInt = i := by
  rw [toInt_saturate, Int.min_eq_left hhigh, Int.max_eq_right hlow]

/-- The integer in range that is nearest to one is that one itself or an end of the range. -/
theorem saturate_eq_iff : saturate i = w ↔
    w.toInt = i ∨ (i < least ∧ w = Int64.minValue) ∨ (greatest < i ∧ w = Int64.maxValue) := by
  have hmin : Int64.minValue.toInt = least := rfl
  have hmax : Int64.maxValue.toInt = greatest := rfl
  have hlow := w.le_toInt
  have hhigh := w.toInt_lt
  rw [← Int64.toInt_inj, ← Int64.toInt_inj, ← Int64.toInt_inj, toInt_saturate, hmin, hmax]
  simp only [least, greatest]
  omega

/-! ### Numerals -/

/-- A text spells an integer in decimal digits, with at most one sign in front. -/
inductive Spells : List Char → Int → Prop
  /-- There is no sign. -/
  | unsigned {cs : List Char} (nonempty : cs ≠ []) (digits : ∀ c ∈ cs, c.isDigit) :
      Spells cs (Nat.ofDigitChars 10 cs 0)
  /-- The sign is a plus. -/
  | plus {cs : List Char} (nonempty : cs ≠ []) (digits : ∀ c ∈ cs, c.isDigit) :
      Spells ('+' :: cs) (Nat.ofDigitChars 10 cs 0)
  /-- The sign is a minus. -/
  | minus {cs : List Char} (nonempty : cs ≠ []) (digits : ∀ c ∈ cs, c.isDigit) :
      Spells ('-' :: cs) (-Nat.ofDigitChars 10 cs 0)

/-- What spells an integer is read as that. -/
theorem Spells.integer? (h : Spells cs i) : Integer.integer? cs = some i := by
  have hread : ∀ cs : List Char, cs ≠ [] → (∀ c ∈ cs, c.isDigit) →
      natural? cs = some (Nat.ofDigitChars 10 cs 0) :=
    fun cs hne hdigits => natural?_eq_some_iff.2 ⟨⟨hne, hdigits⟩, rfl⟩
  cases h with
  | unsigned hne hdigits =>
    unfold Integer.integer?
    split
    · simp at hdigits
    · simp at hdigits
    · simp [hread _ hne hdigits]
  | plus hne hdigits => simp [Integer.integer?, hread _ hne hdigits]
  | minus hne hdigits => simp [Integer.integer?, hread _ hne hdigits]

/-- Nothing else is read. -/
theorem integer?_eq_some_iff : integer? cs = some i ↔ Spells cs i := by
  refine ⟨fun h => ?_, Spells.integer?⟩
  unfold integer? at h
  split at h
  all_goals
    obtain ⟨n, hn, rfl⟩ := Option.map_eq_some_iff.1 h
    simp only [Option.bind_eq_bind, Option.bind_eq_some_iff, Option.pure_def, Option.some_inj,
      natural?_eq_some_iff] at hn
  · obtain ⟨n, ⟨⟨hne, hdigits⟩, rfl⟩, rfl⟩ := hn
    exact .minus hne hdigits
  · obtain ⟨⟨hne, hdigits⟩, rfl⟩ := hn
    exact .plus hne hdigits
  · obtain ⟨⟨hne, hdigits⟩, rfl⟩ := hn
    exact .unsigned hne hdigits

/-- A character that a numeral may contain. -/
theorem Spells.mem (h : Spells cs i) {c : Char} (hc : c ∈ cs) :
    c.isDigit ∨ c = '+' ∨ c = '-' := by
  cases h with
  | unsigned _ hdigits => exact .inl (hdigits c hc)
  | plus _ hdigits =>
    rcases List.mem_cons.1 hc with h | h
    · exact .inr (.inl h)
    · exact .inl (hdigits c h)
  | minus _ hdigits =>
    rcases List.mem_cons.1 hc with h | h
    · exact .inr (.inr h)
    · exact .inl (hdigits c h)

/-- A numeral contains no blanks. -/
theorem Spells.not_isBlank (h : Spells cs i) : ∀ c ∈ cs, Text.isBlank c = false := by
  intro c hc
  rcases h.mem hc with h | rfl | rfl
  · exact Expression.not_isBlank_of_isWordChar (Expression.isWordChar_of_isDigit h)
  · rfl
  · rfl

end ShardRouting.Integer

namespace ShardRouting.Value

variable {v : Value} {q r : ℚ} {i : Int64}

/-! ### Numbers of values -/

/-- A value denotes a number: an integer itself, a truth value zero or one, a floating-point number
what its bits say, and a text the integer that it spells between blanks. -/
inductive Denotes : Value → ℚ → Prop
  /-- A truth value is zero or one. -/
  | bool (b : Bool) : Denotes (.bool b) b.toNat
  /-- A signed integer is itself. -/
  | int (i : Int64) : Denotes (.int i) i.toInt
  /-- An unsigned integer is itself. -/
  | uint (n : UInt64) : Denotes (.uint n) n.toNat
  /-- A floating-point number is what its bits say. -/
  | double {x : Binary64} {q : ℚ} (number : x.number? = some q) : Denotes (.double x) q
  /-- A text is the integer that it spells between blanks. -/
  | text {s : String} {before cs behind : List Char} {i : Int}
      (toList : s.toList = before ++ (cs ++ behind)) (blankBefore : ∀ c ∈ before, Text.isBlank c)
      (blankBehind : ∀ c ∈ behind, Text.isBlank c) (spells : Integer.Spells cs i) :
      Denotes (.text s) i

/-- A text denotes what is read between its blanks. -/
theorem denotes_text_iff {s : String} : Denotes (.text s) q ↔
    ∃ i, Integer.integer? (Text.trimmed Text.isBlank s.toList) = some i ∧ q = i := by
  constructor
  · intro h
    cases h with
    | text htoList hbefore hbehind hspells =>
      refine ⟨_, ?_, rfl⟩
      rw [htoList, Text.trimmed_append_append hbefore (.of_forall hspells.not_isBlank) hbehind]
      exact hspells.integer?
  · rintro ⟨i, hi, rfl⟩
    obtain ⟨before, behind, hbefore, hbehind, htoList⟩ :=
      Text.exists_append_trimmed Text.isBlank s.toList
    exact .text htoList hbefore hbehind (Integer.integer?_eq_some_iff.1 hi)

/-- A value denotes one number at most. -/
theorem Denotes.unique (hq : v.Denotes q) (hr : v.Denotes r) : q = r := by
  cases v with
  | null | bytes => cases hq
  | bool | int | uint => cases hq; cases hr; rfl
  | double x =>
    cases hq with
    | double hq =>
      cases hr with
      | double hr => exact Option.some.inj (hq.symm.trans hr)
  | text s =>
    obtain ⟨i, hi, rfl⟩ := denotes_text_iff.1 hq
    obtain ⟨j, hj, rfl⟩ := denotes_text_iff.1 hr
    rw [Option.some.inj (hi.symm.trans hj)]

/-- The integer view of a floating-point number is its number or, if that is an integer out of
range, the nearest end of the range. -/
theorem integer?_double_eq_some_iff {x : Binary64} : (Value.double x).integer? = some i ↔
    ∃ n : Int, x.number? = some (n : ℚ) ∧ (i.toInt = n ∨ (n < Integer.least ∧ i = Int64.minValue) ∨
      (Integer.greatest < n ∧ i = Int64.maxValue)) := by
  simp only [integer?, Option.map_eq_some_iff, Binary64.integer?_eq_some_iff,
    Integer.saturate_eq_iff]

/-- A value that denotes an integer in range has it as its integer view. -/
theorem Denotes.integer? (h : v.Denotes i.toInt) : v.integer? = some i := by
  generalize hq : (i.toInt : ℚ) = q at h
  cases h with
  | bool b =>
    have hi : i.toInt = b.toNat := by exact_mod_cast hq
    rw [Value.integer?, Option.some_inj, ← Int64.toInt_inj, hi]
    cases b <;> rfl
  | int j => rw [Value.integer?, Int64.toInt_inj.1 (by exact_mod_cast hq : i.toInt = j.toInt)]
  | uint n => exact Integer.narrow?_eq_some_iff.2 (by exact_mod_cast hq)
  | double hx => exact integer?_double_eq_some_iff.2 ⟨i.toInt, by rw [hx, hq], .inl rfl⟩
  | text htoList hbefore hbehind hspells =>
    obtain ⟨j, hj, hij⟩ := denotes_text_iff.1 (Denotes.text htoList hbefore hbehind hspells)
    have hij : i.toInt = j := by exact_mod_cast hq.trans hij
    rw [Value.integer?, Integer.ofNumeral?, hj]
    exact Integer.narrow?_eq_some_iff.2 hij

/-- The integer view is the number of a value, but for floating-point numbers beyond an end of the
range, of which it is that end. -/
theorem integer?_eq_some_iff : v.integer? = some i ↔ v.Denotes i.toInt ∨
    ∃ x n, v = .double x ∧ x.number? = some ((n : Int) : ℚ) ∧
      ((n < Integer.least ∧ i = Int64.minValue) ∨ (Integer.greatest < n ∧ i = Int64.maxValue)) := by
  constructor
  · intro h
    cases v with
    | null | bytes => cases h
    | bool b =>
      cases h
      left
      have hbool := Denotes.bool b
      cases b <;> simpa using hbool
    | int j =>
      cases h
      exact .inl (.int i)
    | uint n =>
      left
      rw [Integer.narrow?_eq_some_iff.1 h]
      exact .uint n
    | double x =>
      obtain ⟨n, hn, hi | hend⟩ := integer?_double_eq_some_iff.1 h
      · exact .inl (.double (hi ▸ hn))
      · exact .inr ⟨x, n, rfl, hn, hend⟩
    | text s =>
      obtain ⟨j, hj, hnarrow⟩ := Option.bind_eq_some_iff.1 h
      exact .inl (denotes_text_iff.2 ⟨j, hj, by rw [Integer.narrow?_eq_some_iff.1 hnarrow]⟩)
  · rintro (h | ⟨x, n, rfl, hn, hend⟩)
    · exact h.integer?
    · exact integer?_double_eq_some_iff.2 ⟨n, hn, .inr hend⟩

/-- The integer view of a value that denotes a number is the nearest integer in range. -/
theorem Denotes.toInt_eq (hq : v.Denotes q) (hi : v.integer? = some i) :
    (i.toInt : ℚ) = max (Integer.least : ℚ) (min q Integer.greatest) := by
  have hnearest : ∃ n : Int, v.Denotes n ∧ Integer.saturate n = i := by
    rcases integer?_eq_some_iff.1 hi with hexact | ⟨x, n, rfl, hn, hend⟩
    · exact ⟨i.toInt, hexact, Integer.saturate_eq_iff.2 (.inl rfl)⟩
    · exact ⟨n, .double hn, Integer.saturate_eq_iff.2 (.inr hend)⟩
  obtain ⟨n, hn, rfl⟩ := hnearest
  rw [hq.unique hn, Integer.toInt_saturate, Int.cast_max, Int.cast_min]

/-- Two numbers have the same nearest number in a range if they are the same or lie beyond the same
end. -/
theorem nearest_eq_iff {l g : ℚ} (h : l < g) : max l (min q g) = max l (min r g) ↔
    q = r ∨ (g ≤ q ∧ g ≤ r) ∨ (q ≤ l ∧ r ≤ l) := by
  grind

/-- The integer view of a value is the number that the value denotes, unless that is an integer
beyond an end of the range, in floating point, which is taken for that end. Values that denote
different numbers and have integer views are the same key exactly at one end of the range or beyond
it. -/
theorem integer?_exact_or_end (v w : Value) :
    (∀ i, v.integer? = some i ↔ v.Denotes i.toInt ∨
      ∃ x n, v = .double x ∧ x.number? = some ((n : Int) : ℚ) ∧
        ((n < Integer.least ∧ i = Int64.minValue) ∨
          (Integer.greatest < n ∧ i = Int64.maxValue))) ∧
    ∀ q r, v.Denotes q → w.Denotes r → q ≠ r → v.integer?.isSome → w.integer?.isSome →
      (v.sameKey w ↔ ((Integer.greatest : ℚ) ≤ q ∧ (Integer.greatest : ℚ) ≤ r) ∨
        (q ≤ Integer.least ∧ r ≤ Integer.least)) := by
  refine ⟨fun i => integer?_eq_some_iff, fun q r hq hr hne hv hw => ?_⟩
  obtain ⟨i, hi⟩ := Option.isSome_iff_exists.1 hv
  obtain ⟨j, hj⟩ := Option.isSome_iff_exists.1 hw
  have hsame : v.sameKey w = true ↔ (i.toInt : ℚ) = j.toInt := by
    rw [sameKey, hi, hj]
    simp [Int64.toInt_inj]
  have hrange : (Integer.least : ℚ) < Integer.greatest := by
    norm_cast
  rw [hsame, hq.toInt_eq hi, hr.toInt_eq hj, nearest_eq_iff hrange, or_iff_right hne]

/-- A floating-point number that denotes an integer, as its exact integer view shows. -/
theorem denotes_double {x : Binary64} {n : Int} (h : x.integer? = some n) :
    Denotes (.double x) (n : ℚ) :=
  .double (Binary64.integer?_eq_some_iff.1 h)

/-- Ten to the powers 19 and 20 lie beyond the greatest integer in range. -/
theorem integer?_exact_or_end_ten_pow :
    Denotes (.double ⟨0x43e158e460913d00⟩) ((10 ^ 19 : Int) : ℚ) ∧
      Denotes (.double ⟨0x4415af1d78b58c40⟩) ((10 ^ 20 : Int) : ℚ) ∧
      Value.sameKey (.double ⟨0x43e158e460913d00⟩) (.double ⟨0x4415af1d78b58c40⟩) := by
  have hfirst := @denotes_double ⟨0x43e158e460913d00⟩ (10 ^ 19) (by decide)
  have hsecond := @denotes_double ⟨0x4415af1d78b58c40⟩ (10 ^ 20) (by decide)
  have hne : ((10 ^ 19 : Int) : ℚ) ≠ ((10 ^ 20 : Int) : ℚ) := by norm_num
  have hle : ∀ k : Int, 10 ^ 19 ≤ k → (Integer.greatest : ℚ) ≤ k := by
    intro k hk
    norm_cast
    rw [Integer.greatest]
    omega
  exact ⟨hfirst, hsecond, ((integer?_exact_or_end _ _).2 _ _ hfirst hsecond hne rfl rfl).2
    (.inl ⟨hle _ (by norm_num), hle _ (by norm_num)⟩)⟩

/-- Ten to the power 19 in floating point has the greatest integer in range as its integer view, and
is the same key as ten to the power 20. -/
theorem not_integer?_exact :
    (Value.integer? (.double ⟨0x43e158e460913d00⟩) = some 9223372036854775807 ∧
      ¬ ∀ v i, Value.integer? v = some i → v.Denotes i.toInt) ∧
    Value.sameKey (.double ⟨0x43e158e460913d00⟩) (.double ⟨0x4415af1d78b58c40⟩) ∧
      ¬ ∀ a b i j q r, Value.integer? a = some i → Value.integer? b = some j → a.Denotes q →
        b.Denotes r → q ≠ r → ¬ a.sameKey b := by
  have hfirst := @denotes_double ⟨0x43e158e460913d00⟩ (10 ^ 19) (by decide)
  have hsecond := @denotes_double ⟨0x4415af1d78b58c40⟩ (10 ^ 20) (by decide)
  refine ⟨⟨by decide, fun h => ?_⟩, by decide, fun h => ?_⟩
  · have heq := hfirst.unique (h _ 9223372036854775807 (by decide))
    exact absurd (Int.cast_injective heq) (by decide)
  · exact h _ _ _ _ _ _ rfl rfl hfirst hsecond (by norm_num) (by decide)

end ShardRouting.Value
