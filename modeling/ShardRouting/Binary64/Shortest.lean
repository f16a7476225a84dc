import ShardRouting.Binary64.Basic

/-!
# Shortest decimals

The shortest decimal that reads back as a given finite floating-point number. The decimals that
read back form an interval around the number; grids of 1, 2, 3, … significant digits are tried in
turn, and on each only the two neighbours of the number can lie nearest to it. The first grid with a
neighbour inside the interval wins, of two the nearer, and an exact tie goes away from zero.
Main content: `Reading` and `Reading.choose?`.
-/

namespace ShardRouting.Binary64

/-- A positive fraction with the interval of numbers that read back as it, on one denominator. -/
structure Reading where
  /-- The numerator of the number itself. -/
  num : Nat
  /-- The numerator of the least number that reads back, or of its greatest lower bound. -/
  low : Nat
  /-- The numerator of the greatest number that reads back, or of its least upper bound. -/
  high : Nat
  /-- The common denominator. -/
  den : Nat
  /-- Whether the ends of the interval read back too. -/
  closed : Bool

/-- The interval of `significand * 2 ^ exponent`: halfway to the neighbours on either side. The
neighbour below is nearer where the significand is the least of its binade. -/
def Reading.ofFinite (significand : Nat) (exponent : Int) : Reading :=
  let below := if significand = Nat.pow 2 52 ∧ -1074 < exponent then 1 else 2
  let scale := Nat.pow 2 (exponent - 2).toNat
  { num := 4 * significand * scale
    low := (4 * significand - below) * scale
    high := (4 * significand + 2) * scale
    den := Nat.pow 2 (2 - exponent).toNat
    closed := significand % 2 = 0 }

/-- Whether the number `a / b` reads back. -/
def Reading.holds (r : Reading) (a b : Nat) : Bool :=
  if r.closed then r.low * b ≤ a * r.den && a * r.den ≤ r.high * b
  else r.low * b < a * r.den && a * r.den < r.high * b

/-- The number of decimal digits of a natural number. -/
def digitCount (n : Nat) : Nat :=
  (Nat.toDigits 10 n).length

/-- The power of ten above the number: it lies in `[10 ^ (p - 1), 10 ^ p)`. -/
def Reading.magnitude (r : Reading) : Int :=
  if r.den ≤ r.num then digitCount (r.num / r.den)
  else
    let d := digitCount (r.den / r.num)
    if r.num * Nat.pow 10 (d - 1) = r.den then 2 - (d : Int) else 1 - (d : Int)

/-- The point of the grid of step `10 ^ k` that is nearest to the number among its neighbours that
read back, in units of the step. -/
def Reading.choose? (r : Reading) (k : Int) : Option Nat :=
  let up := Nat.pow 10 k.toNat
  let down := Nat.pow 10 (-k).toNat
  let num := r.num * down
  let den := r.den * up
  let q := num / den
  let lower := r.holds (q * up) down
  let upper := r.holds ((q + 1) * up) down
  if lower && upper then
    if 2 * (num - q * den) < den then some q else some (q + 1)
  else if lower then some q
  else if upper then some (q + 1)
  else none

/-- A decimal number: `digits * 10 ^ exponent`. -/
structure Decimal where
  /-- The digits as a natural number. -/
  digits : Nat
  /-- The power of ten of the last digit. -/
  exponent : Int
  deriving DecidableEq, Repr

/-- A decimal without zeros at its end, given a bound on their number. -/
def Decimal.strip (d : Decimal) : Nat → Decimal
  | 0 => d
  | n + 1 =>
    if d.digits % 10 = 0 ∧ d.digits ≠ 0 then
      Decimal.strip ⟨d.digits / 10, d.exponent + 1⟩ n
    else d

/-- The decimal on the first of the grids of `count`, `count + 1`, … digits that has a point. -/
def Reading.search (r : Reading) (count : Nat) : Nat → Option Decimal
  | 0 => none
  | fuel + 1 =>
    let k := r.magnitude - count
    match r.choose? k with
    | some d => some ⟨d, k⟩
    | none => r.search (count + 1) fuel

/-- The shortest decimal that reads back as `significand * 2 ^ exponent`; seventeen digits always
suffice. -/
def shortest (significand : Nat) (exponent : Int) : Decimal :=
  if significand = 0 then ⟨0, 0⟩
  else
    match (Reading.ofFinite significand exponent).search 1 17 with
    | some d => d.strip 17
    | none => ⟨0, 0⟩

end ShardRouting.Binary64
