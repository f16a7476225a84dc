import Mathlib
import ShardRouting.Proofs.IntegralTexts

/-!
# Seventeen digits

The search for the shortest decimal of a finite floating-point number tries grids of one to
seventeen digits. Points of the last grid lie closer together than the ends of the interval of
numbers that read back, so that one of the two neighbours of the number lies inside. Hence every
number has a decimal that reads back; that of a number that is no integer denotes none either, as
there is no integer in its interval, and is written with a point.

* `Reading.IsWide`: an interval that is wide for its number; `isWide_ofFinite`: all are.
* `Reading.IsWide.exists_search`: the search ends with a point.
* `shortest_exponent_neg`: the decimal of a number that is no integer has digits behind the point.
* `point_mem_text`: the text of such a number has a point in it.
-/

namespace ShardRouting.Binary64

variable {r : Reading} {a b n significand : Nat} {k exponent : Int} {d : Decimal}

/-! ### Grids -/

theorem lt_ten_pow_digitCount (n : Nat) : n < 10 ^ digitCount n :=
  (Nat.length_toDigits_le_iff (by decide) Nat.length_toDigits_pos).1 (Nat.le_refl _)

theorem ten_pow_pred_digitCount_le (hn : 0 < n) : 10 ^ (digitCount n - 1) ≤ n := by
  by_contra! hlt
  rcases Nat.eq_zero_or_pos (digitCount n - 1) with hzero | hpos
  · rw [hzero] at hlt
    omega
  · have hcount : digitCount n ≤ digitCount n - 1 :=
      (Nat.length_toDigits_le_iff (by decide) hpos).2 hlt
    omega

/-- Powers of ten with and without digits behind the point. -/
theorem ten_zpow_eq (k : Int) : (10 : ℚ) ^ k = 10 ^ k.toNat / 10 ^ (-k).toNat := by
  rw [← zpow_natCast, ← zpow_natCast, ← zpow_sub₀ (by norm_num)]
  congr 1
  omega

/-- A point at or below the number that does not read back lies at or below the interval. -/
theorem Reading.le_low_of_not_holds (h : ¬ r.holds a b) (hb : 0 < b) (hhigh : r.num < r.high)
    (hle : a * r.den ≤ r.num * b) : a * r.den ≤ r.low * b := by
  by_contra! hlow
  exact h (holds_of_lt hlow (hle.trans_lt (Nat.mul_lt_mul_of_pos_right hhigh hb)))

/-- A point above the number that does not read back lies at or above the interval. -/
theorem Reading.high_le_of_not_holds (h : ¬ r.holds a b) (hb : 0 < b) (hlow : r.low < r.num)
    (hle : r.num * b ≤ a * r.den) : r.high * b ≤ a * r.den := by
  by_contra! hhigh
  exact h (holds_of_lt ((Nat.mul_lt_mul_of_pos_right hlow hb).trans_le hle) hhigh)

/-- Where no point of a grid is chosen, neither neighbour of the number reads back. -/
theorem Reading.not_holds_of_choose?_eq_none (h : r.choose? k = none) :
    ∃ q, q = r.num * 10 ^ (-k).toNat / (r.den * 10 ^ k.toNat) ∧
      ¬ r.holds (q * 10 ^ k.toNat) (10 ^ (-k).toNat) ∧
      ¬ r.holds ((q + 1) * 10 ^ k.toNat) (10 ^ (-k).toNat) := by
  unfold choose? at h
  simp only [Nat.pow_eq] at h
  refine ⟨_, rfl, ?_⟩
  split_ifs at h
  simp_all

/-- A reading whose interval reaches beyond the number on both sides, and is so wide that sixteen
digits of the number fall within its width. -/
structure Reading.IsWide (r : Reading) : Prop where
  /-- The denominator is positive. -/
  den_pos : 0 < r.den
  /-- The interval begins below the number. -/
  low_lt : r.low < r.num
  /-- The interval ends above the number. -/
  lt_high : r.num < r.high
  /-- The number has at most sixteen digits before its width begins. -/
  wide : r.num + r.low * 10 ^ 16 < r.high * 10 ^ 16

namespace Reading.IsWide

/-- The power of ten of the leading digit is at most the number. -/
theorem ten_zpow_magnitude_le (h : r.IsWide) : (10 : ℚ) ^ (r.magnitude - 1) * r.den ≤ r.num := by
  have hnum : 0 < r.num := Nat.zero_lt_of_lt h.low_lt
  unfold magnitude
  split
  · next hle =>
    have hpow := ten_pow_pred_digitCount_le (Nat.div_pos hle h.den_pos)
    obtain ⟨c, hc⟩ : ∃ c, digitCount (r.num / r.den) = c + 1 :=
      Nat.exists_eq_add_one.2 Nat.length_toDigits_pos
    rw [hc, Nat.add_sub_cancel, Nat.le_div_iff_mul_le h.den_pos] at hpow
    rw [hc, Nat.cast_succ, add_sub_cancel_right, zpow_natCast]
    exact_mod_cast hpow
  · next hlt =>
    have hpow := lt_ten_pow_digitCount (r.den / r.num)
    obtain ⟨c, hc⟩ : ∃ c, digitCount (r.den / r.num) = c + 1 :=
      Nat.exists_eq_add_one.2 Nat.length_toDigits_pos
    rw [hc, Nat.div_lt_iff_lt_mul hnum] at hpow
    simp only [hc, Nat.add_sub_cancel, Nat.pow_eq]
    split
    · next heq =>
      have hexponent : 2 - ((c + 1 : ℕ) : ℤ) - 1 = -(c : ℕ) := by omega
      rw [hexponent, zpow_neg, zpow_natCast, inv_mul_le_iff₀ (by positivity), mul_comm]
      exact_mod_cast heq.ge
    · have hexponent : 1 - ((c + 1 : ℕ) : ℤ) - 1 = -(c + 1 : ℕ) := by omega
      rw [hexponent, zpow_neg, zpow_natCast, inv_mul_le_iff₀ (by positivity)]
      exact_mod_cast hpow.le

/-- The grid of seventeen digits is finer than the number by sixteen. -/
theorem grid_le (h : r.IsWide) (hk : k = r.magnitude - 17) :
    r.den * 10 ^ k.toNat * 10 ^ 16 ≤ r.num * 10 ^ (-k).toNat := by
  have hmagnitude := h.ten_zpow_magnitude_le
  have hsplit : r.magnitude - 1 = k + 16 := by omega
  rw [hsplit, zpow_add₀ (by norm_num), ten_zpow_eq, div_mul_eq_mul_div, div_mul_eq_mul_div,
    div_le_iff₀ (by positivity)] at hmagnitude
  have hcomm : r.den * 10 ^ k.toNat * 10 ^ 16 = 10 ^ k.toNat * 10 ^ 16 * r.den := by ring
  rw [hcomm]
  exact_mod_cast hmagnitude

/-- A grid that is finer than the number by sixteen digits has a point that reads back: the two
neighbours of the number lie closer together than the ends of the interval. -/
theorem exists_choose? (h : r.IsWide)
    (hgrid : r.den * 10 ^ k.toNat * 10 ^ 16 ≤ r.num * 10 ^ (-k).toNat) :
    ∃ digits, r.choose? k = some digits := by
  by_contra! hnone
  obtain ⟨q, hq, hlower, hupper⟩ :=
    not_holds_of_choose?_eq_none (Option.eq_none_iff_forall_ne_some.2 hnone)
  have hdown : 0 < 10 ^ (-k).toNat := Nat.pow_pos (by decide)
  have hstep : 0 < r.den * 10 ^ k.toNat := Nat.mul_pos h.den_pos (Nat.pow_pos (by decide))
  have hcomm : ∀ q, q * 10 ^ k.toNat * r.den = q * (r.den * 10 ^ k.toNat) := fun q => by ring
  have hbelow : q * 10 ^ k.toNat * r.den ≤ r.num * 10 ^ (-k).toNat := by
    rw [hcomm, hq]
    exact Nat.div_mul_le_self _ _
  have habove : r.num * 10 ^ (-k).toNat ≤ (q + 1) * 10 ^ k.toNat * r.den := by
    rw [hcomm]
    exact ((Nat.div_lt_iff_lt_mul hstep).1 (hq ▸ Nat.lt_succ_self q)).le
  have hlow := le_low_of_not_holds hlower hdown h.lt_high hbelow
  have hhigh := high_le_of_not_holds hupper hdown h.low_lt habove
  have hwide := Nat.mul_lt_mul_of_pos_right h.wide hdown
  have hleft : (r.num + r.low * 10 ^ 16) * 10 ^ (-k).toNat =
      r.num * 10 ^ (-k).toNat + r.low * 10 ^ (-k).toNat * 10 ^ 16 := by ring
  have hright : r.high * 10 ^ 16 * 10 ^ (-k).toNat = r.high * 10 ^ (-k).toNat * 10 ^ 16 := by ring
  rw [hcomm] at hlow hhigh
  rw [Nat.succ_mul] at hhigh
  omega

/-- The search ends with a point that is chosen, on the grid of seventeen digits at the latest. -/
theorem exists_search (h : r.IsWide) :
    ∃ k digits, r.search 1 17 = some ⟨digits, k⟩ ∧ r.choose? k = some digits := by
  obtain ⟨last, hlast⟩ := h.exists_choose? (h.grid_le rfl)
  obtain ⟨k, digits, hsearch, hchoose, -⟩ :=
    @exists_search_of_choose? r 1 17 17 last hlast (by decide) (by decide)
  exact ⟨k, digits, hsearch, hchoose⟩

end Reading.IsWide

/-- The interval of a finite number is wide: its ends are at least three quarters of the last place
apart, and a number at which they are no more has the least significand of its binade. -/
theorem isWide_ofFinite (hpos : 0 < significand) (hlt : significand < 2 ^ 53) (exponent : Int) :
    (Reading.ofFinite significand exponent).IsWide := by
  have hscale : 0 < 2 ^ (exponent - 2).toNat := Nat.pow_pos (by decide)
  have hden : 0 < 2 ^ (2 - exponent).toNat := Nat.pow_pos (by decide)
  constructor
  all_goals simp only [Reading.ofFinite, Nat.pow_eq]
  · exact hden
  · refine Nat.mul_lt_mul_of_pos_right ?_ hscale
    split <;> omega
  · refine Nat.mul_lt_mul_of_pos_right ?_ hscale
    omega
  · have hwide : 4 * significand + (4 * significand -
        if significand = 2 ^ 52 ∧ -1074 < exponent then 1 else 2) * 10 ^ 16 <
        (4 * significand + 2) * 10 ^ 16 := by
      split <;> omega
    have hmul := Nat.mul_lt_mul_of_pos_right hwide hscale
    linarith

/-! ### Decimals of numbers that are no integers -/

/-- An integer in the interval of a number whose place is behind the point is the number. -/
theorem magnitude?_of_holds (hexponent : exponent < 0) (hb : 0 < b)
    (h : (Reading.ofFinite significand exponent).holds (n * b) b) :
    magnitude? significand exponent = some n := by
  obtain ⟨k, rfl⟩ : ∃ k : Nat, exponent = -k := ⟨exponent.natAbs, by omega⟩
  obtain ⟨hlow, hhigh⟩ := Reading.holds_le h
  rw [Nat.mul_right_comm, Nat.mul_le_mul_right_iff hb] at hlow hhigh
  have hscale : (-(k : Int) - 2).toNat = 0 := by omega
  have hden : (2 - -(k : Int)).toNat = k + 2 := by omega
  have hmul : n * 2 ^ (k + 2) = 4 * (n * 2 ^ k) := by ring
  simp only [Reading.ofFinite, hscale, hden, Nat.pow_eq, pow_zero, Nat.mul_one, hmul] at hlow hhigh
  have hsignificand : significand = n * 2 ^ k := by
    split at hlow <;> omega
  have hpos : 0 < 2 ^ k := Nat.pow_pos (by decide)
  rw [magnitude?, if_neg (by omega), Int.neg_neg, Int.toNat_natCast, Nat.pow_eq, hsignificand,
    Nat.mul_mod_left, if_pos rfl, Nat.mul_div_cancel _ hpos]

/-- The number that a decimal denotes. -/
def Decimal.number (d : Decimal) : ℚ := d.digits * 10 ^ d.exponent

/-- Without zeros at its end a decimal denotes the same number. -/
theorem Decimal.number_strip (d : Decimal) (fuel : Nat) : (d.strip fuel).number = d.number := by
  induction fuel generalizing d with
  | zero => rfl
  | succ fuel ih =>
    rw [strip]
    split
    · next hdigits =>
      have htens : (d.digits : ℚ) = (d.digits / 10 : ℕ) * 10 := by
        norm_cast
        omega
      rw [ih, number, number, htens, zpow_add_one₀ (by norm_num)]
      ring
    · rfl

/-- The decimal of a number that is no integer has digits behind the point. -/
theorem shortest_exponent_neg (h : magnitude? significand exponent = none)
    (hlt : significand < 2 ^ 53) : (shortest significand exponent).exponent < 0 := by
  have hexponent : exponent < 0 := by
    by_contra! hnonneg
    simp [magnitude?, hnonneg] at h
  have hpos : 0 < significand := by
    by_contra! hzero
    obtain rfl := Nat.eq_zero_of_le_zero hzero
    simp [magnitude?] at h
  obtain ⟨k, digits, hsearch, hchoose⟩ := (isWide_ofFinite hpos hlt exponent).exists_search
  rw [shortest, if_neg hpos.ne', hsearch]
  by_contra! hstrip
  -- a decimal without digits behind the point denotes an integer, which would read back
  obtain ⟨m, hm⟩ := Int.eq_ofNat_of_zero_le hstrip
  have hdown : 0 < 10 ^ (-k).toNat := Nat.pow_pos (by decide)
  have hnumber := Decimal.number_strip ⟨digits, k⟩ 17
  rw [Decimal.number, Decimal.number, hm, zpow_natCast, ten_zpow_eq, mul_div_assoc',
    eq_div_iff (by positivity)] at hnumber
  have hdigits : digits * 10 ^ k.toNat =
      (Decimal.strip ⟨digits, k⟩ 17).digits * 10 ^ m * 10 ^ (-k).toNat := by
    exact_mod_cast hnumber.symm
  have hholds := Reading.holds_of_choose? hchoose
  simp only [Nat.pow_eq, hdigits] at hholds
  cases h.symm.trans (magnitude?_of_holds hexponent hdown hholds)

/-- A decimal with digits behind the point is written with one. -/
theorem point_mem_positional (h : d.exponent < 0) : '.' ∈ positional .plain d := by
  unfold positional
  rw [if_neg (by omega)]
  simp

variable {x : Binary64}

/-- The text of a finite number that is no integer has a point in it. -/
theorem point_mem_text {negative : Bool} (hx : x.classify = .finite negative significand exponent)
    (h : x.integer? = none) : '.' ∈ (x.text .plain).toList := by
  rw [integer?, hx, Option.map_eq_none_iff] at h
  have hpoint := point_mem_positional (shortest_exponent_neg h (significand_of_classify hx).1)
  rw [text_plain_of_classify hx rfl, String.toList_ofList]
  split
  · exact List.mem_cons_of_mem _ hpoint
  · exact hpoint

end ShardRouting.Binary64
