import Mathlib
import ShardRouting.Proofs.AlgorithmPlaces
import ShardRouting.Proofs.ExactIntegers
import ShardRouting.Proofs.Grammar
import ShardRouting.Proofs.IntegralTexts
import ShardRouting.Proofs.WrittenTokens

/-!
# Hash algorithms as expressions

Two of the built-in algorithms can be written as expressions, too: the remainder of the hash of a
value's text, and of the checksum of its bytes. The algorithm reads the value, the expression the
operand that the value becomes. Both lead to one index where operand and value have the same text,
or the same bytes, which they do but for truth values, some floating-point numbers and malformed
byte sequences.

* `Expression.remainderSource`: the expressions; `Expression.parse_remainderSource`: their trees.
* `Expression.Agree`: an algorithm and its expression lead to the same index.
* `Value.KeepsText`, `Value.KeepsBytes`: values whose operands have their text, or their bytes.
* `Expression.agree_remainders`: when the two algorithms and their expressions agree.
-/

namespace ShardRouting.Expression

/-! ### Remainders as texts -/

/-- The text of the remainder of a function of a column. -/
def remainderSource (f : Function) (column : String) (m : Int64) : String :=
  f.name ++ "($\x7b" ++ column ++ "\x7d) % " ++ Integer.numeral m

variable {rest : List Char} {tokens : List Token} {f : Function} {column : String} {m : Int64}
  {v : Value} {s : Scalar} {row : Row}

/-- The name of a function in front of a parenthesis is a word. -/
theorem scan_name (f : Function) (h : Token.scan ('(' :: rest) = .ok tokens) :
    Token.scan (f.name.toList ++ '(' :: rest) = .ok (.word f.name :: tokens) := by
  have hname : ∃ c cs, f.name.toList = c :: cs ∧ isWordStart c = true ∧
      ∀ c ∈ cs, isWordChar c = true := by
    cases f <;> simp [Function.name, isWordChar, isWordStart]
  obtain ⟨c, cs, hname, hstart, hword⟩ := hname
  have hend : EndsWord ('(' :: rest) := by rintro c ⟨⟩; decide
  have hscan := scan_word hstart hword hend h
  rwa [← hname, String.ofList_toList, ← List.cons_append, ← hname] at hscan

/-- The tokens of a remainder of a function of a column. -/
theorem scan_remainderSource (hcolumn : IsWritable column) (hm : 0 ≤ m) :
    Token.scan (remainderSource f column m).toList =
      .ok [.word f.name, .lparen, .column (columnName column), .rparen, .percent, .int m] := by
  have hnumber : Token.scan ((Integer.numeral m).toList ++ []) = .ok [.int m] :=
    scan_numeral hm nofun (by rw [Token.scan])
  rw [List.append_nil] at hnumber
  have hpercent : Token.scan ('%' :: ' ' :: (Integer.numeral m).toList) = .ok [.percent, .int m] :=
    scan_sign rfl ((scan_blank rfl).trans hnumber)
  have hclose : Token.scan (')' :: ' ' :: '%' :: ' ' :: (Integer.numeral m).toList) =
      .ok [.rparen, .percent, .int m] := scan_sign rfl ((scan_blank rfl).trans hpercent)
  have hopen := scan_sign (c := '(') rfl (scan_column hcolumn hclose)
  have htext : (remainderSource f column m).toList = f.name.toList ++ '(' :: '$' :: '\x7b' ::
      (column.toList ++ '\x7d' :: ')' :: ' ' :: '%' :: ' ' :: (Integer.numeral m).toList) := by
    simp [remainderSource]
  rw [htext]
  exact scan_name f hopen

/-- The tree of the remainder of a function of a column. -/
def remainderTree (f : Function) (column : String) (m : Int64) : Tree :=
  .binary .rem (.call f [.column (columnName column)]) (.literal (.int m))

/-- A call with one column. -/
theorem Derives.call_column (hadmits : f.admits 1 = true) (name : String) :
    Derives .primary [.word f.name, .lparen, .column name, .rparen] (.call f [.column name]) := by
  have hnamed : f.IsNamed f.name := by cases f <;> rfl
  have hargs : ∀ a ∈ [([Token.column name], Tree.column name)], Derives .sum a.1 a.2 :=
    List.forall_mem_singleton.2 (Derives.column name).sum_of_primary
  simpa using Derives.call hnamed (by simpa using hadmits) hargs

/-- The remainder of a primary by a number. -/
theorem Derives.remainder {ts : List Token} {t : Tree} (h : Derives .primary ts t) (m : Int64) :
    Derives .sum (ts ++ [.percent, .int m]) (.binary .rem t (.literal (.int m))) := by
  have hproduct : Derives .product (ts ++ spelling [⟨.rem, [.int m], .literal (.int m)⟩])
      (grouped t [⟨.rem, [.int m], .literal (.int m)⟩]) :=
    .product (.bare h) (List.forall_mem_singleton.2 rfl)
      (List.forall_mem_singleton.2 (.bare (.int m)))
  refine Derives.sum_of_product ?_
  simpa [spelling, grouped, Operator.sign] using hproduct

/-- The text of a remainder denotes its tree. -/
theorem parse_remainderSource (hcolumn : IsWritable column) (hadmits : f.admits 1 = true)
    (hm : 0 ≤ m) : Expression.parse (remainderSource f column m) =
      .ok ⟨remainderSource f column m, remainderTree f column m⟩ := by
  have hderives := (Derives.call_column hadmits (columnName column)).remainder m
  exact parse_source_eq_ok_iff.2 ⟨rfl, _, scan_remainderSource hcolumn hm, hderives.parse⟩

/-! ### Remainders as values -/

/-- The value of a function of a column. -/
theorem eval_call_column {name : String} {u : Scalar} (hrow : row.get? name = some v)
    (hs : Scalar.ofValue? v = some s) (hf : f.apply [s] = .ok u) (hne : f ≠ .coalesce) :
    Tree.eval row (.call f [.column name]) = .ok (some u) := by
  have hcolumn : Tree.eval row (.column name) = .ok (some s) := by
    rw [Tree.eval, hrow, Option.bind_some, hs]
  have hall : evalAll row [.column name] = .ok [some s] := by
    simp only [evalAll, hcolumn, bind, Except.bind]
  have hcall : Tree.eval row (.call f [.column name]) = some <$> f.apply [s] := by
    cases f with
    | coalesce => exact absurd rfl hne
    | _ => simp only [Tree.eval, hall, allPresent, bind, Except.bind, Option.map_some]
  rw [hcall, hf]
  rfl

/-- The remainder of an integer that is not negative by a positive one is in range. -/
theorem rem_apply {i : Int64} (hi : 0 ≤ i) (hm : 0 < m) :
    Operator.rem.apply i m = .ok (.int (Int64.ofInt (i.toInt % m.toInt))) := by
  have hinonneg := Integer.toInt_nonneg.2 hi
  have hmpos := Integer.toInt_pos.2 hm
  have hne : m ≠ 0 := by rintro rfl; exact absurd hm (by decide)
  have hmod := Int.emod_nonneg i.toInt hmpos.ne'
  have hmodlt := Int.emod_lt_of_pos i.toInt hmpos
  have hmlt := m.toInt_lt
  have hquotient : ¬ i.toInt.tdiv m.toInt > Integer.greatest := by
    have hle := Int.ediv_le_self m.toInt hinonneg
    have hilt := i.toInt_lt
    rw [Int.tdiv_eq_ediv_of_nonneg hinonneg, Integer.greatest]
    omega
  have hrange : Integer.least ≤ i.toInt % m.toInt ∧ i.toInt % m.toInt ≤ Integer.greatest := by
    rw [Integer.least, Integer.greatest]
    omega
  simp only [Operator.apply, if_neg hne, if_neg hquotient, Int.tmod_eq_emod_of_nonneg hinonneg,
    Scalar.ofExact, Integer.narrow?, if_pos hrange]

/-- The value of the remainder of a function of a column. -/
theorem eval_remainderTree {i : Int64} (hrow : row.get? (columnName column) = some v)
    (hs : Scalar.ofValue? v = some s) (hf : f.apply [s] = .ok (.int i)) (hne : f ≠ .coalesce)
    (hi : 0 ≤ i) (hm : 0 < m) : Tree.eval row (remainderTree f column m) =
      .ok (some (.int (Int64.ofInt (i.toInt % m.toInt)))) := by
  simp only [remainderTree, Tree.eval, eval_call_column hrow hs hf hne, bind, Except.bind,
    Scalar.toInteger, rem_apply hi hm]
  rfl

/-- An algorithm and a function lead to the same index for a value and a modulus: the algorithm by
itself, and the function in the expression that takes its remainder, on every row that binds the
value to the column. -/
def Agree (run : KeyAlgorithm) (f : Function) (v : Value) (m : Int64) : Prop :=
  ∀ (count : Nat) (column : String) (row : Row), IsWritable column →
    row.get? (columnName column) = some v → ∃ e i,
      Expression.parse (remainderSource f column m) = .ok e ∧
        run count [m] [v] = .ok (.index i) ∧ e.eval row = .ok (some (.int i))

/-- The indices that remainders make are the same only for the same remainders. -/
theorem ofInt_emod_inj {x y : Int} (hm : 0 < m) :
    Int64.ofInt (x % m.toInt) = Int64.ofInt (y % m.toInt) ↔ x % m.toInt = y % m.toInt := by
  have hmpos := Integer.toInt_pos.2 hm
  have hmlt := m.toInt_lt
  have hvalue : ∀ z : Int, (Int64.ofInt (z % m.toInt)).toInt = z % m.toInt := by
    intro z
    have hmod := Int.emod_nonneg z hmpos.ne'
    have hmodlt := Int.emod_lt_of_pos z hmpos
    exact Int64.toInt_ofInt_of_le (by omega) (by omega)
  rw [← Int64.toInt_inj, hvalue, hvalue]

/-- An algorithm that takes a remainder agrees with a function if the remainders are the same. -/
theorem agree_iff {run : KeyAlgorithm} {x y : Nat} (hadmits : f.admits 1 = true)
    (hne : f ≠ .coalesce) (hs : Scalar.ofValue? v = some s) (hm : 0 < m) (hy : y ≤ 2 ^ 32)
    (hrun : ∀ count, run count [m] [v] = .ok (KeyAlgorithm.residue x m))
    (hf : f.apply [s] = .ok (.int (Int64.ofNat y))) :
    Agree run f v m ↔ (x : Int) % m.toInt = y % m.toInt := by
  have hvalue : (Int64.ofNat y).toInt = y := Int64.toInt_ofNat_of_lt (by omega)
  have hnonneg : 0 ≤ Int64.ofNat y := by
    rw [← Integer.toInt_nonneg, hvalue]
    omega
  have heval : ∀ {column row}, row.get? (columnName column) = some v →
      Tree.eval row (remainderTree f column m) = .ok (some (.int (Int64.ofInt (y % m.toInt)))) :=
    fun hrow => hvalue ▸ eval_remainderTree hrow hs hf hne hnonneg hm
  rw [← ofInt_emod_inj hm]
  constructor
  · intro h
    -- the agreement is asked of every column, of which this is one
    obtain ⟨e, i, he, hkey, hi⟩ := h 0 "c" [("c", v)] ⟨by decide, by decide⟩ rfl
    rw [hrun] at hkey
    rw [parse_remainderSource ⟨by decide, by decide⟩ hadmits (Int64.le_of_lt hm)] at he
    cases he
    rw [Expression.eval, heval rfl] at hi
    cases hkey
    exact (Scalar.int.inj (Option.some.inj (Except.ok.inj hi))).symm
  · intro hsame count column row hcolumn hrow
    exact ⟨_, _, parse_remainderSource hcolumn hadmits (Int64.le_of_lt hm), hrun count,
      (heval hrow).trans (by rw [← hsame])⟩

end ShardRouting.Expression

namespace ShardRouting.Value

/-! ### Values and their operands -/

open Expression

variable {v : Value} {s : Scalar}

/-- A value whose operand has its text: no truth value, which becomes a number, and no
floating-point number that becomes an integer with another numeral than it is written with. -/
def KeepsText (v : Value) : Prop :=
  (∀ b, v ≠ .bool b) ∧ ∀ x i, v = .double x → x.integer? = some i →
    i.natAbs ≤ 2 ^ 53 ∧ x ≠ Binary64.negativeZero

/-- A value whose operand has its bytes: no malformed byte sequence, which becomes a text with
replacement characters. -/
def KeepsBytes (v : Value) : Prop :=
  ∀ bs, v = .bytes bs → (Text.ofUtf8? bs).isSome

/-- An operand is a text just as the value is written, or the integer of a value that is no text. -/
theorem ofValue?_eq_some_iff : Scalar.ofValue? v = some s ↔
    (v.isNull = false ∧ (v.integer? = none ∨ ∃ t, v = .text t) ∧ s = .text v.toText) ∨
      ∃ i, v.integer? = some i ∧ (∀ t, v ≠ .text t) ∧ s = .int i := by
  cases v with
  | null => simp [Scalar.ofValue?, isNull, integer?]
  | text t => simp [Scalar.ofValue?, isNull, toText, eq_comm]
  | bytes bs => simp [Scalar.ofValue?, isNull, integer?, toText, eq_comm]
  | bool b => simp [Scalar.ofValue?, isNull, integer?, eq_comm]
  | int i => simp [Scalar.ofValue?, isNull, integer?, eq_comm]
  | uint n =>
    cases hi : (Value.uint n).integer? <;> simp [Scalar.ofValue?, isNull, hi, eq_comm]
  | double x =>
    cases hi : (Value.double x).integer? <;> simp [Scalar.ofValue?, isNull, hi, eq_comm]

theorem exists_ofValue? (hv : v.isNull = false) : ∃ s, Scalar.ofValue? v = some s := by
  simp only [ofValue?_eq_some_iff]
  by_cases htext : ∃ t, v = .text t
  · exact ⟨_, .inl ⟨hv, .inr htext, rfl⟩⟩
  · cases hi : v.integer? with
    | none => exact ⟨_, .inl ⟨hv, .inl rfl, rfl⟩⟩
    | some i => exact ⟨_, .inr ⟨i, rfl, not_exists.1 htext, rfl⟩⟩

/-- The numeral of a value's integer is its text, if it keeps that. -/
theorem numeral_eq_toText {i : Int64} (hv : v.KeepsText) (hi : v.integer? = some i)
    (htext : ∀ t, v ≠ .text t) : Integer.numeral i = v.toText := by
  cases v with
  | null | bytes => cases hi
  | bool b => exact absurd rfl (hv.1 b)
  | text t => exact absurd rfl (htext t)
  | int => cases hi; rfl
  | uint n =>
    have hvalue : i.toInt = n.toNat := Integer.narrow?_eq_some_iff.1 hi
    rw [Integer.numeral, hvalue]
    rfl
  | double x =>
    obtain ⟨j, hj, rfl⟩ := Option.map_eq_some_iff.1 hi
    obtain ⟨hle, hzero⟩ := hv.2 x j rfl hj
    have hvalue : (Integer.saturate j).toInt = j :=
      Integer.toInt_saturate_of_le (by rw [Integer.least]; omega) (by rw [Integer.greatest]; omega)
    rw [Integer.numeral, hvalue]
    exact (Binary64.text_plain_eq hj hle hzero).symm

/-- An operand has the text of a value that keeps it. -/
theorem toText_of_ofValue? (hs : Scalar.ofValue? v = some s) (hv : v.KeepsText) :
    s.toText = v.toText := by
  rcases ofValue?_eq_some_iff.1 hs with ⟨-, -, rfl⟩ | ⟨i, hi, htext, rfl⟩
  · rfl
  · exact numeral_eq_toText hv hi htext

/-- An operand has the bytes of a value that keeps them. -/
theorem toBytes_of_ofValue? (hs : Scalar.ofValue? v = some s) (hv : v.KeepsBytes) :
    s.toBytes = v.keyBytes := by
  rcases ofValue?_eq_some_iff.1 hs with ⟨-, hnone, rfl⟩ | ⟨i, hi, htext, rfl⟩
  · cases v with
    | bytes bs =>
      have hread := hv bs rfl
      unfold Text.ofUtf8? at hread
      simp only at hread
      split at hread
      · next heq => exact heq
      · cases hread
    | text => rfl
    | _ => simp_all [keyBytes, Scalar.toBytes]
  · cases v with
    | text t => exact absurd rfl (htext t)
    | null | bytes => cases hi
    | _ => simp only [keyBytes, hi, Scalar.toBytes]

end ShardRouting.Value

namespace ShardRouting.Expression

/-! ### Agreement of the built-in algorithms -/

variable {v : Value} {s : Scalar} {m : Int64}

theorem isNull_of_ofValue? (hs : Scalar.ofValue? v = some s) : v.isNull = false := by
  cases v with
  | null => cases hs
  | _ => rfl

theorem find?_singleton_of_ofValue? (hs : Scalar.ofValue? v = some s) :
    ([v].find? fun v => !v.isNull) = some v := by
  rw [List.find?_singleton, isNull_of_ofValue? hs]
  rfl

/-- The remainders of hashes agree if those of a value and of its operand do. -/
theorem agree_hash_iff (hs : Scalar.ofValue? v = some s) (hm : 0 < m) :
    Agree .hashRemainder .hash v m ↔
      (Checksum.textHash v.toText : Int) % m.toInt = Checksum.textHash s.toText % m.toInt := by
  have hle := Nat.le_trans (Checksum.textHash_le s.toText) (show _ ≤ 2 ^ 32 by decide)
  exact agree_iff rfl (by decide) hs hm hle (fun count => KeyAlgorithm.hashRemainder_eq
    (find?_singleton_of_ofValue? hs) (KeyAlgorithm.modulus_singleton hm)) rfl

/-- The remainders of checksums agree if those of a value and of its operand do. -/
theorem agree_crc32_iff (hs : Scalar.ofValue? v = some s) (hm : 0 < m) :
    Agree .crc32Remainder .crc32 v m ↔
      ((Checksum.crc32 v.keyBytes).toNat : Int) % m.toInt =
        (Checksum.crc32 s.toBytes).toNat % m.toInt :=
  agree_iff rfl (by decide) hs hm (UInt32.toNat_lt _).le (fun count =>
    KeyAlgorithm.crc32Remainder_eq (find?_singleton_of_ofValue? hs)
      (KeyAlgorithm.modulus_singleton hm)) rfl

/-- A named remainder of a hash and the expression that says the same lead to the same index for a
value if the hash of the value has the same remainder as that of its operand, and those of a
checksum if the checksums have. The hashes are the same unless the value is a truth value, or a
floating-point number that denotes an integer beyond two to the power 53 or is the negative zero;
the checksums unless it is a byte sequence that is no UTF-8. -/
theorem agree_remainders (hv : v.isNull = false) (hm : 0 < m) :
    (v.KeepsText → Agree .hashRemainder .hash v m) ∧
    (v.KeepsBytes → Agree .crc32Remainder .crc32 v m) ∧
    ∃ s, Scalar.ofValue? v = some s ∧
      (Agree .hashRemainder .hash v m ↔
        (Checksum.textHash v.toText : Int) % m.toInt = Checksum.textHash s.toText % m.toInt) ∧
      (Agree .crc32Remainder .crc32 v m ↔
        ((Checksum.crc32 v.keyBytes).toNat : Int) % m.toInt =
          (Checksum.crc32 s.toBytes).toNat % m.toInt) := by
  obtain ⟨s, hs⟩ := Value.exists_ofValue? hv
  refine ⟨fun htext => ?_, fun hbytes => ?_, s, hs, agree_hash_iff hs hm, agree_crc32_iff hs hm⟩
  · rw [agree_hash_iff hs hm, Value.toText_of_ofValue? hs htext]
  · rw [agree_crc32_iff hs hm, Value.toBytes_of_ofValue? hs hbytes]

/-- The number two in floating point, and the text `é` in UTF-8. -/
theorem agree_remainders_two :
    Agree .hashRemainder .hash (.double ⟨0x4000000000000000⟩) 7 ∧
      Agree .crc32Remainder .crc32 (.bytes [0xc3, 0xa9]) 16 := by
  have htext : (Value.double ⟨0x4000000000000000⟩).KeepsText := by
    refine ⟨nofun, ?_⟩
    rintro x i ⟨⟩ hi
    have htwo : (⟨0x4000000000000000⟩ : Binary64).integer? = some 2 := by decide
    cases htwo.symm.trans hi
    exact ⟨by decide, by decide⟩
  have hutf8 : (Value.bytes [0xc3, 0xa9]).KeepsBytes := by
    rintro bs ⟨⟩
    decide
  exact ⟨(agree_remainders rfl (by decide)).1 htext, (agree_remainders rfl (by decide)).2.1 hutf8⟩

/-- A truth value is hashed as a word by name, and as a number in an expression; bytes that are no
UTF-8 are checked as they are by name, and as a replacement character in an expression. -/
theorem not_agree_remainders :
    (¬ Agree .hashRemainder .hash (.bool true) 2 ∧
      ¬ Agree .crc32Remainder .crc32 (.bytes [0xff]) 2) ∧
      ¬ ∀ v m, v.isNull = false → 0 < m →
        Agree .hashRemainder .hash v m ∧ Agree .crc32Remainder .crc32 v m := by
  have hhash : ¬ Agree .hashRemainder .hash (.bool true) 2 := by
    rw [agree_hash_iff rfl (by decide)]
    decide
  have hcrc32 : ¬ Agree .crc32Remainder .crc32 (.bytes [0xff]) 2 := by
    rw [agree_crc32_iff rfl (by decide)]
    decide +kernel
  exact ⟨⟨hhash, hcrc32⟩, fun h => hhash (h (.bool true) 2 rfl (by decide)).1⟩

end ShardRouting.Expression
