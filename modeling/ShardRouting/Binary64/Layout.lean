import ShardRouting.Binary64.Shortest

/-!
# Texts of floating-point numbers

Two layouts of the shortest decimal: the plain one, always positional and with a point only where
there is a fraction, and the tagged one of messages, which always shows that the number is no
integer type and turns to powers of ten for very small and very large numbers.
-/

namespace ShardRouting.Binary64

/-- What a layout decides. -/
structure Layout where
  /-- The least power of ten of the leading digit that is written positionally. -/
  leastPlain : Option Int
  /-- The least power of ten of the leading digit above the positional ones. -/
  greatestPlain : Option Int
  /-- Whether an integer keeps a fraction of one zero. -/
  keepsFraction : Bool

/-- Values as texts: positional for every size, integers without a point. -/
def Layout.plain : Layout := ⟨none, none, false⟩

/-- Values inside messages: positional from `0.0001` up to sixteen integer digits, and integers
with a fraction. -/
def Layout.tagged : Layout := ⟨some (-4), some 16, true⟩

/-- The decimal digits of a number. -/
def digitsOf (n : Nat) : List Char :=
  Nat.toDigits 10 n

/-- A decimal in positional notation. -/
def positional (layout : Layout) (d : Decimal) : List Char :=
  let ds := digitsOf d.digits
  if 0 ≤ d.exponent then
    ds ++ List.replicate d.exponent.toNat '0' ++ (if layout.keepsFraction then ['.', '0'] else [])
  else
    let places := (-d.exponent).toNat
    let padded := List.replicate (places + 1 - ds.length) '0' ++ ds
    padded.take (padded.length - places) ++ '.' :: padded.drop (padded.length - places)

/-- The power of ten of the leading digit of a decimal. -/
def Decimal.leading (d : Decimal) : Int :=
  d.exponent + (digitsOf d.digits).length - 1

/-- A decimal with one digit in front of the point and a power of ten. -/
def scientific (d : Decimal) : List Char :=
  let power := (toString d.leading).toList
  match digitsOf d.digits with
  | [] => 'e' :: power
  | [c] => c :: 'e' :: power
  | c :: cs => c :: '.' :: cs ++ 'e' :: power

/-- Whether a layout writes a decimal positionally; zero always is. -/
def Layout.isPositional (layout : Layout) (d : Decimal) : Bool :=
  d.digits = 0 ||
    (layout.leastPlain.all (· ≤ d.leading) && layout.greatestPlain.all (d.leading < ·))

/-- The text of a floating-point number in a layout. -/
def text (layout : Layout) (x : Binary64) : String :=
  match x.classify with
  | .nan => "NaN"
  | .infinite negative => if negative then "-inf" else "inf"
  | .finite negative significand exponent =>
    let d := shortest significand exponent
    let body := if layout.isPositional d then positional layout d else scientific d
    String.ofList (if negative then '-' :: body else body)

end ShardRouting.Binary64
