/-!
# Checksums

Two functions that spread texts and bytes over integers in a way that never changes: the 32-bit
cyclic redundancy check with the reflected polynomial `edb88320`, and a polynomial hash of base 31.
Main statement: `textHash_le`.
-/

namespace ShardRouting.Checksum

/-- One place of the division by the reflected polynomial. -/
def shiftRemainder (r : UInt32) : UInt32 :=
  if r &&& 1 = 1 then (r >>> 1) ^^^ 0xedb88320 else r >>> 1

/-- The remainder behind one more byte: eight places of the division. -/
def addByte (r : UInt32) (b : UInt8) : UInt32 :=
  Nat.repeat shiftRemainder 8 (r ^^^ b.toUInt32)

/-- The cyclic redundancy check of a byte sequence. -/
def crc32 (bs : List UInt8) : UInt32 :=
  bs.foldl addByte 0xffffffff ^^^ 0xffffffff

/-- The polynomial of base 31 over the code points of a text, in 32 bits with wrap-around. -/
def polynomial (cs : List Char) : Int32 :=
  cs.foldl (fun h c => h * 31 + Int32.ofNat c.toNat) 0

/-- The hash of a text: the magnitude of its polynomial, never negative. -/
def textHash (s : String) : Nat :=
  (polynomial s.toList).toInt.natAbs

/-- A hash is at most two to the power 31. -/
theorem textHash_le (s : String) : textHash s ≤ 2147483648 := by
  have h₁ := (polynomial s.toList).le_toInt
  have h₂ := (polynomial s.toList).toInt_lt
  unfold textHash
  omega

end ShardRouting.Checksum
