import Mathlib
import ShardRouting.Binary64.Layout

/-!
# Texts of integral floating-point numbers

A floating-point number that denotes an integer is written as the shortest decimal that reads back.
Up to two to the power 53 in magnitude that is the numeral of the integer: neighbours are at most
one apart there, so that no other number with zeros at its end reads back, and the search for the
shortest decimal cannot end early. Beyond, digits may be lost, and zeros stand in their place.

* `Reading.Pins`: the interval of a reading holds one integer, as far as tens matter.
* `Reading.Pins.exists_search`, `denotes_shortest`: the decimal that is found denotes the integer.
* `text_plain_eq`: the text is the numeral, but that negative zero has a sign.
-/

namespace ShardRouting.Binary64

variable {r : Reading} {n significand : Nat} {exponent : Int}

/-! ### Decimals that denote an integer -/

/-- A decimal denotes a natural number. -/
def Decimal.Denotes (d : Decimal) (n : Nat) : Prop :=
  ∃ k : Nat, d.exponent = k ∧ d.digits * 10 ^ k = n

/-- Without zeros at its end a decimal denotes the same. -/
theorem Decimal.Denotes.strip {d : Decimal} (h : d.Denotes n) (fuel : Nat) :
    (d.strip fuel).Denotes n := by
  induction fuel generalizing d with
  | zero => exact h
  | succ fuel ih =>
    rw [Decimal.strip]
    split
    · next hdigits =>
      obtain ⟨k, hk, rfl⟩ := h
      refine ih ⟨k + 1, by simp [hk], ?_⟩
      have htens : d.digits = d.digits / 10 * 10 := by omega
      calc d.digits / 10 * 10 ^ (k + 1) = d.digits / 10 * 10 * 10 ^ k := by ring
        _ = d.digits * 10 ^ k := by rw [← htens]
    · exact h

/-- The digits of a number with zeros behind it. -/
theorem toDigits_mul_pow (hn : 0 < n) (k : Nat) :
    Nat.toDigits 10 (n * 10 ^ k) = Nat.toDigits 10 n ++ List.replicate k '0' := by
  induction k with
  | zero => simp
  | succ k ih =>
    have hpos : 0 < n * 10 ^ k := Nat.mul_pos hn (Nat.pow_pos (by decide))
    have hzero := Nat.toDigits_append_toDigits (b := 10) (d := 0) (by decide) hpos (by decide)
    rw [Nat.toDigits_zero, ih] at hzero
    rw [List.replicate_succ', ← List.append_assoc, hzero]
    congr 1
    ring

/-- In the plain layout a decimal that denotes a positive integer has its digits. -/
theorem Decimal.Denotes.positional {d : Decimal} (h : d.Denotes n) (hn : 0 < n) :
    positional .plain d = Nat.toDigits 10 n := by
  obtain ⟨k, hk, rfl⟩ := h
  have hpos : 0 < d.digits := Nat.pos_of_mul_pos_right hn
  rw [toDigits_mul_pow hpos, Binary64.positional, hk, if_pos (Int.natCast_nonneg k),
    Int.toNat_natCast]
  exact List.append_nil _

/-! ### The search -/

/-- A point that is chosen reads back. -/
theorem Reading.holds_of_choose? {k : Int} {d : Nat} (h : r.choose? k = some d) :
    r.holds (d * Nat.pow 10 k.toNat) (Nat.pow 10 (-k).toNat) = true := by
  unfold choose? at h
  simp only at h
  split at h
  · next hboth =>
    obtain ⟨hlower, hupper⟩ := Bool.and_eq_true_iff.1 hboth
    split at h
    · cases h; exact hlower
    · cases h; exact hupper
  · split at h
    · next hlower => cases h; exact hlower
    · split at h
      · next hupper => cases h; exact hupper
      · cases h

/-- The search ends with a point that is chosen, on the last grid that it tries if that has one. -/
theorem Reading.exists_search_of_choose? {count last fuel digits : Nat}
    (h : r.choose? (r.magnitude - last) = some digits) (hcount : count ≤ last)
    (hfuel : last < count + fuel) : ∃ k d, r.search count fuel = some ⟨d, k⟩ ∧
      r.choose? k = some d ∧ r.magnitude - last ≤ k := by
  induction fuel generalizing count with
  | zero => omega
  | succ fuel ih =>
    rw [search]
    cases hd : r.choose? (r.magnitude - count) with
    | some d => exact ⟨_, d, rfl, hd, by omega⟩
    | none =>
      have hne : count ≠ last := by
        rintro rfl
        cases hd.symm.trans h
      exact ih (by omega) (by omega)

/-- A reading of an integer that reads back, as no other number with a zero at its end does. -/
structure Reading.Pins (r : Reading) (n : Nat) : Prop where
  /-- The integer is positive. -/
  pos : 0 < n
  /-- The denominator is positive. -/
  den_pos : 0 < r.den
  /-- The number is the integer. -/
  num_eq : r.num = n * r.den
  /-- The integer reads back. -/
  holds : r.holds n 1 = true
  /-- No other ten does. -/
  only : ∀ m, 10 ∣ m → r.holds m 1 = true → m = n

namespace Reading.Pins

variable (h : r.Pins n)
include h

/-- On a grid of more than units the only point that may be chosen is the integer. -/
theorem mul_of_choose? {k d : Nat} (hk : 0 < k) (hd : r.choose? k = some d) :
    d * 10 ^ k = n := by
  have hholds := holds_of_choose? hd
  rw [Int.toNat_natCast, Int.toNat_of_nonpos (by omega)] at hholds
  exact h.only _ (Dvd.dvd.mul_left (dvd_pow_self 10 hk.ne') d) hholds

/-- On the grid of units the integer is chosen. -/
theorem choose?_zero : r.choose? 0 = some n := by
  have hq : r.num / r.den = n := by rw [h.num_eq, Nat.mul_div_cancel _ h.den_pos]
  have hrest : r.num - n * r.den = 0 := by rw [h.num_eq, Nat.sub_self]
  have hden := h.den_pos
  have hholds := h.holds
  unfold choose?
  simp only [Int.toNat_zero, Int.neg_zero, Nat.pow_eq, pow_zero, Nat.mul_one, hq, hholds, hrest,
    hden, if_true]
  split <;> rfl

theorem magnitude_eq : r.magnitude = digitCount n := by
  have hle : r.den ≤ r.num := by
    rw [h.num_eq]
    exact Nat.le_mul_of_pos_left _ h.pos
  rw [magnitude, if_pos hle, h.num_eq, Nat.mul_div_cancel _ h.den_pos]

/-- The search ends with a decimal that denotes the integer, on the grid of units at the latest. -/
theorem exists_search {count fuel : Nat} (hcount : count ≤ digitCount n)
    (hfuel : digitCount n < count + fuel) :
    ∃ d, r.search count fuel = some d ∧ d.Denotes n := by
  have hunits : r.magnitude - digitCount n = 0 := by rw [h.magnitude_eq, Int.sub_self]
  obtain ⟨k, d, hsearch, hd, hk⟩ :=
    exists_search_of_choose? (hunits ▸ h.choose?_zero) hcount hfuel
  rw [hunits] at hk
  obtain ⟨k, rfl⟩ := Int.eq_ofNat_of_zero_le hk
  refine ⟨_, hsearch, k, rfl, ?_⟩
  rcases Nat.eq_zero_or_pos k with rfl | hpos
  · cases h.choose?_zero.symm.trans hd
    exact Nat.mul_one n
  · exact h.mul_of_choose? hpos hd

end Reading.Pins

/-! ### Integers up to two to the power 53 -/

/-- Of the multiples of four times a number, those at most two away from one are that one. -/
theorem eq_of_quarters {m n t : Nat} (ht : 0 < t) (hlow : 4 * (n * t) - 2 ≤ m * (4 * t))
    (hhigh : m * (4 * t) ≤ 4 * (n * t) + 2) : m = n := by
  have hm : m * (4 * t) = 4 * (m * t) := by ring
  rcases Nat.lt_trichotomy m n with hlt | rfl | hlt
  · have hstep := Nat.mul_le_mul_right t (Nat.succ_le_of_lt hlt)
    rw [Nat.succ_mul] at hstep
    omega
  · rfl
  · have hstep := Nat.mul_le_mul_right t (Nat.succ_le_of_lt hlt)
    rw [Nat.succ_mul] at hstep
    omega

/-- The numbers that read back lie in the closed interval. -/
theorem Reading.holds_le {a b : Nat} (h : r.holds a b = true) :
    r.low * b ≤ a * r.den ∧ a * r.den ≤ r.high * b := by
  unfold holds at h
  split at h
  · simpa using h
  · simp only [Bool.and_eq_true, decide_eq_true_eq] at h
    omega

/-- The numbers inside the interval read back. -/
theorem Reading.holds_of_lt {a b : Nat} (hlow : r.low * b < a * r.den)
    (hhigh : a * r.den < r.high * b) : r.holds a b = true := by
  unfold holds
  split
  · simp only [Bool.and_eq_true, decide_eq_true_eq]
    omega
  · simp only [Bool.and_eq_true, decide_eq_true_eq]
    omega

/-- A reading whose place is at most a unit pins the integer that it denotes. -/
theorem pins_of_nonpos (hn : 0 < n) (hexponent : exponent ≤ 0)
    (h : magnitude? significand exponent = some n) :
    (Reading.ofFinite significand exponent).Pins n := by
  obtain ⟨k, rfl⟩ : ∃ k : Nat, exponent = -k := ⟨exponent.natAbs, by omega⟩
  have ht : 0 < 2 ^ k := Nat.pow_pos (by decide)
  obtain rfl : significand = n * 2 ^ k := by
    unfold magnitude? at h
    split at h
    · next hnonneg =>
      obtain rfl : k = 0 := by omega
      simpa using h
    · rw [Int.neg_neg, Int.toNat_natCast, Nat.pow_eq] at h
      split at h
      · next hmod =>
        cases h
        exact (Nat.div_mul_cancel (Nat.dvd_of_mod_eq_zero hmod)).symm
      · cases h
  have hscale : (-(k : Int) - 2).toNat = 0 := by omega
  have hden : (2 - -(k : Int)).toNat = k + 2 := by omega
  have hfour : 2 ^ (k + 2) = 4 * 2 ^ k := by ring
  have hpos : 0 < n * 2 ^ k := Nat.mul_pos hn ht
  have hmul : n * (4 * 2 ^ k) = 4 * (n * 2 ^ k) := by ring
  constructor
  · exact hn
  all_goals simp only [Reading.ofFinite, hscale, hden, Nat.pow_eq, pow_zero, Nat.mul_one, hfour]
  · omega
  · exact hmul.symm
  · refine Reading.holds_of_lt ?_ ?_
    · simp only [hmul, Nat.mul_one]
      split <;> omega
    · simp only [hmul, Nat.mul_one]
      omega
  · intro m _ hm
    obtain ⟨hlow, hhigh⟩ := Reading.holds_le hm
    simp only [Nat.mul_one] at hlow hhigh
    refine eq_of_quarters ht (Nat.le_trans ?_ hlow) hhigh
    split <;> omega

/-- Two to the power 53 is pinned where its place is two: the next one reads back too, but neither
is a ten. -/
theorem pins_of_one : (Reading.ofFinite (2 ^ 52) 1).Pins (2 ^ 53) := by
  have hreading : Reading.ofFinite (2 ^ 52) 1 = ⟨2 ^ 54, 2 ^ 54 - 1, 2 ^ 54 + 2, 2, true⟩ := by rfl
  rw [hreading]
  refine ⟨by decide, by decide, by decide, by decide, fun m hten hm => ?_⟩
  obtain ⟨hlow, hhigh⟩ := Reading.holds_le hm
  simp only at hlow hhigh
  omega

/-- The significand of a finite number has at most 53 bits, and all of them unless the place is the
least. -/
theorem significand_of_classify {x : Binary64} {negative : Bool}
    (h : x.classify = .finite negative significand exponent) :
    significand < 2 ^ 53 ∧ (2 ^ 52 ≤ significand ∨ exponent = -1074) := by
  unfold classify at h
  simp only [Nat.pow_eq] at h
  have hfraction := Nat.mod_lt x.bits.toNat (show 0 < 2 ^ 52 by decide)
  split at h
  · split at h <;> cases h
  · split at h
    · cases h; omega
    · cases h; omega

theorem pins_of_classify {x : Binary64} {negative : Bool}
    (hx : x.classify = .finite negative significand exponent)
    (h : magnitude? significand exponent = some n) (hn : 0 < n) (hle : n ≤ 2 ^ 53) :
    (Reading.ofFinite significand exponent).Pins n := by
  obtain ⟨hlt, hfull⟩ := significand_of_classify hx
  rcases le_or_gt exponent 0 with hexponent | hexponent
  · exact pins_of_nonpos hn hexponent h
  · have hfull := hfull.resolve_right (by omega)
    obtain ⟨k, rfl⟩ : ∃ k : Nat, exponent = k + 1 := ⟨exponent.toNat - 1, by omega⟩
    rw [magnitude?, if_pos (by omega)] at h
    have hk : ((k : Int) + 1).toNat = k + 1 := by omega
    rw [hk, Nat.pow_eq] at h
    cases h
    obtain rfl : k = 0 := by
      by_contra hk
      have hfour := Nat.pow_le_pow_right (show 0 < 2 by decide) (show 2 ≤ k + 1 by omega)
      have hmul := Nat.mul_le_mul_left significand hfour
      omega
    obtain rfl : significand = 2 ^ 52 := by omega
    exact pins_of_one

/-- Only zero has no significand. -/
theorem eq_zero_iff_of_magnitude? (h : magnitude? significand exponent = some n) :
    n = 0 ↔ significand = 0 := by
  unfold magnitude? at h
  simp only [Nat.pow_eq] at h
  split at h
  · cases h
    simp
  · split at h
    · next hmod =>
      cases h
      rw [Nat.div_eq_zero_iff_lt (Nat.pow_pos (by decide))]
      constructor
      · intro hlt
        rwa [Nat.mod_eq_of_lt hlt] at hmod
      · rintro rfl
        exact Nat.pow_pos (by decide)
    · cases h

/-- The decimal of a number that denotes an integer of at most two to the power 53 denotes the same
integer. -/
theorem denotes_shortest {x : Binary64} {negative : Bool}
    (hx : x.classify = .finite negative significand exponent)
    (h : magnitude? significand exponent = some n) (hn : 0 < n) (hle : n ≤ 2 ^ 53) :
    (shortest significand exponent).Denotes n := by
  have hne : significand ≠ 0 := fun hzero =>
    hn.ne' ((eq_zero_iff_of_magnitude? h).2 hzero)
  have hcount : digitCount n ≤ 17 :=
    (Nat.length_toDigits_le_iff (by decide) (by decide)).2 (by omega)
  have hsearch := (pins_of_classify hx h hn hle).exists_search Nat.length_toDigits_pos
    (Nat.lt_of_le_of_lt hcount (show 17 < 1 + 17 by decide))
  obtain ⟨d, hd, hdenotes⟩ := hsearch
  rw [shortest, if_neg hne, hd]
  exact hdenotes.strip 17

/-! ### Texts -/

/-- Zero with a negative sign. -/
def negativeZero : Binary64 := ⟨0x8000000000000000⟩

theorem eq_negativeZero_of_classify {x : Binary64}
    (h : x.classify = .finite true 0 exponent) : x = negativeZero := by
  obtain ⟨bits⟩ := x
  have hlt := bits.toNat_lt
  suffices hbits : bits.toNat = 2 ^ 63 by
    rw [negativeZero, Binary64.mk.injEq, ← UInt64.toNat_inj, hbits]
    rfl
  unfold classify at h
  simp only [Nat.pow_eq] at h
  split at h
  · split at h <;> cases h
  · split at h
    · next hexponent =>
      simp only [Class.finite.injEq, decide_eq_true_eq] at h
      omega
    · simp only [Class.finite.injEq] at h
      omega

/-- The numeral of an integer is that of its magnitude, with a sign if it is negative. -/
theorem toString_signed {negative : Bool} (h : 0 < n ∨ negative = false) :
    toString (signed negative n) =
      String.ofList (if negative then '-' :: Nat.toDigits 10 n else Nat.toDigits 10 n) := by
  rw [Int.toString_eq_repr, Int.repr_eq_if, signed]
  cases negative with
  | false => simp [Nat.repr_eq_ofList_toDigits]
  | true =>
    have hpos : 0 < n := h.resolve_right (by decide)
    rw [if_pos rfl, if_pos rfl, if_neg (by omega), Int.neg_neg, Int.toNat_natCast,
      Nat.repr_eq_ofList_toDigits, ← List.singleton_append, String.ofList_append]

@[simp] theorem isPositional_plain (d : Decimal) : Layout.plain.isPositional d = true := by
  simp [Layout.isPositional, Layout.plain]

/-- The plain text of a finite number is its decimal, behind a sign if it is negative. -/
theorem text_plain_of_classify {x : Binary64} {negative : Bool}
    (hx : x.classify = .finite negative significand exponent) {body : List Char}
    (hbody : positional .plain (shortest significand exponent) = body) :
    x.text .plain = String.ofList (if negative then '-' :: body else body) := by
  simp only [text, hx, isPositional_plain, if_true, hbody]

/-- The text of a number that denotes an integer of at most two to the power 53 is its numeral,
unless it is negative zero. -/
theorem text_plain_eq {x : Binary64} {i : Int} (h : x.integer? = some i)
    (hle : i.natAbs ≤ 2 ^ 53) (hzero : x ≠ negativeZero) : x.text .plain = toString i := by
  unfold integer? at h
  split at h
  · next negative significand exponent hx =>
    obtain ⟨n, hn, rfl⟩ := Option.map_eq_some_iff.1 h
    have hle : n ≤ 2 ^ 53 := by
      unfold signed at hle
      split at hle <;> omega
    rcases Nat.eq_zero_or_pos n with rfl | hpos
    · obtain rfl := (eq_zero_iff_of_magnitude? hn).1 rfl
      obtain rfl : negative = false := by
        cases negative with
        | false => rfl
        | true => exact absurd (eq_negativeZero_of_classify hx) hzero
      rw [toString_signed (.inr rfl)]
      exact text_plain_of_classify hx (by simp [shortest, positional, digitsOf, Layout.plain])
    · rw [toString_signed (.inl hpos)]
      exact text_plain_of_classify hx ((denotes_shortest hx hn hpos hle).positional hpos)
  · cases h

/-- Two to the power 60, which is 1152921504606846976, has a shorter decimal. -/
example : (⟨0x43b0000000000000⟩ : Binary64).text .plain = "1152921504606847000" := by rfl

end ShardRouting.Binary64
