import ShardRouting.Integer

/-!
# Binary floating-point numbers

A 64-bit floating-point number is its bits; what they denote is an exact dyadic number, an infinity
or no number at all. Everything here is exact arithmetic on the bits. Main content: `classify` and the
integer view `integer?`.
-/

namespace ShardRouting

/-- A 64-bit floating-point number, as its bits. -/
structure Binary64 where
  /-- Sign, eleven bits of exponent, 52 bits of fraction. -/
  bits : UInt64
  deriving DecidableEq, Repr

namespace Binary64

/-- What the bits of a floating-point number denote. -/
inductive Class where
  /-- The number `± significand * 2 ^ exponent`. -/
  | finite (negative : Bool) (significand : Nat) (exponent : Int)
  /-- An infinity. -/
  | infinite (negative : Bool)
  /-- Not a number. -/
  | nan
  deriving DecidableEq, Repr

/-- What a floating-point number denotes. -/
def classify (x : Binary64) : Class :=
  let n := x.bits.toNat
  let negative := decide (n / Nat.pow 2 63 = 1)
  let exponent : Nat := n / Nat.pow 2 52 % Nat.pow 2 11
  let fraction : Nat := n % Nat.pow 2 52
  if exponent = 2047 then
    if fraction = 0 then .infinite negative else .nan
  else if exponent = 0 then .finite negative fraction (-1074)
  else .finite negative (Nat.pow 2 52 + fraction) ((exponent : Int) - 1075)

/-- A magnitude with a sign in front. -/
def signed (negative : Bool) (n : Nat) : Int :=
  if negative then -(n : Int) else n

/-- The integer `significand * 2 ^ exponent`, where it is one. -/
def magnitude? (significand : Nat) (exponent : Int) : Option Nat :=
  if 0 ≤ exponent then some (significand * Nat.pow 2 exponent.toNat)
  else if significand % Nat.pow 2 (-exponent).toNat = 0 then
    some (significand / Nat.pow 2 (-exponent).toNat)
  else none

/-- The integer that a floating-point number denotes, where it denotes one. -/
def integer? (x : Binary64) : Option Int :=
  match x.classify with
  | .finite negative significand exponent =>
    (magnitude? significand exponent).map (signed negative)
  | _ => none

/-- Half a unit in the last place above the greatest finite number: from here on a number is nearest
to an infinity. -/
def overflow : Nat := Nat.pow 2 1024 - Nat.pow 2 970

/-- Whether the number `n * 10 ^ e` is nearest to a finite number. Its number of digits decides all
cases but those of 309 digits in front of the point. -/
def isFinite (n : Nat) (e : Int) : Bool :=
  let digits := (Nat.toDigits 10 n).length + e
  n = 0 || decide (digits < 309) ||
    (decide (digits = 309) &&
      if 0 ≤ e then decide (n * Nat.pow 10 e.toNat < overflow)
      else decide (n < overflow * Nat.pow 10 (-e).toNat))

end Binary64

end ShardRouting
