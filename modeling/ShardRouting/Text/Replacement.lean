/-!
# Reading bytes as text

Reading UTF-8 with replacement: a byte sequence is cut into well-formed characters and maximal
pieces that begin none, and each such piece reads as one replacement character. A byte sequence is
well formed exactly when it is the encoding of what it reads as. Main content: `ofBytes` and
`ofUtf8?`.
-/

namespace ShardRouting.Text

/-- The character that stands for a malformed piece. -/
def replacement : Char := '\ufffd'

/-- What a first byte asks of the bytes behind it: how many follow, and the range of the second. -/
structure Lead where
  /-- How many bytes follow. -/
  count : Nat
  /-- The least second byte. -/
  low : UInt8
  /-- The greatest second byte. -/
  high : UInt8
  /-- The bits of the code point that the first byte holds. -/
  bits : Nat

/-- What a byte asks for as the first of several, or nothing where it begins no character. -/
def Lead.ofByte? (b : UInt8) : Option Lead :=
  let n := b.toNat
  if 0xc2 ≤ n ∧ n ≤ 0xdf then some ⟨1, 0x80, 0xbf, n % 0x20⟩
  else if n = 0xe0 then some ⟨2, 0xa0, 0xbf, 0⟩
  else if n = 0xed then some ⟨2, 0x80, 0x9f, 0xd⟩
  else if 0xe1 ≤ n ∧ n ≤ 0xef then some ⟨2, 0x80, 0xbf, n % 0x10⟩
  else if n = 0xf0 then some ⟨3, 0x90, 0xbf, 0⟩
  else if 0xf1 ≤ n ∧ n ≤ 0xf3 then some ⟨3, 0x80, 0xbf, n % 0x8⟩
  else if n = 0xf4 then some ⟨3, 0x80, 0x8f, 4⟩
  else none

/-- Where a reader stands: between characters, or inside one with bytes to come. -/
inductive Pending where
  /-- Between characters. -/
  | none
  /-- Inside a character: the bits so far, how many bytes follow and the range of the next one. -/
  | some (bits : Nat) (count : Nat) (low high : UInt8)

/-- The characters that a byte completes when the reader is between characters. -/
def startByte (b : UInt8) : List Char × Pending :=
  if b < 0x80 then ([Char.ofNat b.toNat], .none)
  else
    match Lead.ofByte? b with
    | some lead => ([], .some lead.bits lead.count lead.low lead.high)
    | none => ([replacement], .none)

/-- The characters that a byte completes, and where the reader stands behind it. -/
def readByte (state : Pending) (b : UInt8) : List Char × Pending :=
  match state with
  | .none => startByte b
  | .some bits count low high =>
    if low ≤ b ∧ b ≤ high then
      let bits := bits * 64 + b.toNat % 64
      if count ≤ 1 then ([Char.ofNat bits], .none)
      else ([], .some bits (count - 1) 0x80 0xbf)
    else
      let (cs, next) := startByte b
      (replacement :: cs, next)

/-- The characters of a byte sequence, read from where the reader stands. -/
def readBytes : Pending → List UInt8 → List Char
  | .none, [] => []
  | .some .., [] => [replacement]
  | state, b :: bs =>
    let (cs, next) := readByte state b
    cs ++ readBytes next bs

/-- The text of a byte sequence; each malformed piece reads as one replacement character. -/
def ofBytes (bs : List UInt8) : String :=
  String.ofList (readBytes .none bs)

/-- The text that a byte sequence encodes. -/
def ofUtf8? (bs : List UInt8) : Option String :=
  let s := ofBytes bs
  if s.toUTF8.data.toList = bs then some s else none

end ShardRouting.Text
