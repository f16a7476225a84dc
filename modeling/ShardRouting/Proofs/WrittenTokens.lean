import Mathlib
import ShardRouting.Proofs.Declarations

/-!
# Written tokens

What the scanner reads at the start of a text that begins with a token as it is written: a sign, a
word, a decimal numeral, a literal text or a placeholder. A word or a numeral ends where no word
character follows, and a literal text where no quote follows its last one.

* `Integer.natural?_eq_some_iff`: what a decimal numeral denotes.
* `scan_blank`, `scan_sign`, `scan_word`, `scan_digits`, `scan_literal`, `scan_column`: the tokens
  of a text, from those of what follows.
-/

namespace ShardRouting

namespace Integer

/-- The number that digits denote is the library's. -/
theorem ofDigits_eq (cs : List Char) : ofDigits cs = Nat.ofDigitChars 10 cs 0 := by
  rw [Nat.ofDigitChars_eq_foldl, ofDigits]
  congr 1
  funext n c
  rw [Nat.mul_comm]
  rfl

/-- Numerals are the texts of one digit or more. -/
theorem natural?_eq_some_iff {cs : List Char} {n : Nat} : natural? cs = some n ↔
    (cs ≠ [] ∧ ∀ c ∈ cs, c.isDigit) ∧ Nat.ofDigitChars 10 cs 0 = n := by
  simp only [natural?, ofDigits_eq, List.all_eq_true]
  split
  · next h => rw [Option.some_inj, and_iff_right h]
  · next h => simp [h]

/-- The numeral of an integer that is not negative is the one of a natural number. -/
theorem toList_numeral {m : Int64} (hm : 0 ≤ m) :
    (numeral m).toList = Nat.toDigits 10 m.toInt.toNat := by
  rw [numeral, Int.toString_eq_repr, Int.repr_eq_if, if_pos (toInt_nonneg.2 hm), Nat.toList_repr]

end Integer

namespace Expression

variable {c : Char} {cs rest : List Char} {tokens : List Token} {column : String} {m : Int64}

/-- The name of the column that a placeholder with a text between its braces stands for. -/
def columnName (column : String) : String :=
  Identifier.normalize (String.ofList (Text.trimmed Text.isBlank column.toList))

/-- A text may stand between the braces of a placeholder. -/
def IsWritable (column : String) : Prop :=
  '\x7d' ∉ column.toList ∧ Text.trimmed Text.isBlank column.toList ≠ []

/-- A word does not go on into a text. -/
def EndsWord (rest : List Char) : Prop :=
  ∀ c ∈ rest.head?, isWordChar c = false

/-! ### Words -/

theorem takeWhile_append_of_endsWord (hword : ∀ c ∈ cs, isWordChar c = true)
    (hend : EndsWord rest) : (cs ++ rest).takeWhile isWordChar = cs := by
  rw [List.takeWhile_append_of_pos hword]
  cases rest with
  | nil => simp
  | cons c rest => rw [List.takeWhile_cons_of_neg (by simp [hend c rfl]), List.append_nil]

theorem afterWord_append_of_endsWord (hword : ∀ c ∈ cs, isWordChar c = true)
    (hend : EndsWord rest) : afterWord (cs ++ rest) = rest := by
  rw [afterWord, List.dropWhile_append_of_pos hword]
  cases rest with
  | nil => rfl
  | cons c rest => rw [List.dropWhile_cons_of_neg (by simp [hend c rfl])]

theorem isWordChar_of_isDigit (h : c.isDigit = true) : isWordChar c = true := by
  simp [isWordChar, Char.isAlphanum, h]

theorem isWordChar_of_isWordStart (h : isWordStart c = true) : isWordChar c = true := by
  simp only [isWordStart, isWordChar, Char.isAlphanum, Bool.or_eq_true] at h ⊢
  exact h.imp_left Or.inl

/-- No digit begins a word. -/
theorem not_isDigit_of_isWordStart (h : isWordStart c = true) : c.isDigit = false := by
  rw [isWordStart, Bool.or_eq_true, decide_eq_true_eq] at h
  rcases h with hletter | rfl
  · simp only [Char.isAlpha, Char.isUpper, Char.isLower, Bool.or_eq_true, Bool.and_eq_true,
      decide_eq_true_eq, UInt32.le_iff_toNat_le, ge_iff_le] at hletter
    simp only [Char.isDigit, Bool.and_eq_false_iff, decide_eq_false_iff_not,
      UInt32.le_iff_toNat_le, ge_iff_le]
    have hnine : '9'.val.toNat = 57 := rfl
    have hupper : 'A'.val.toNat = 65 := rfl
    have hlower : 'a'.val.toNat = 97 := rfl
    omega
  · decide

/-! ### Tokens at the start of a text -/

/-- Blanks mean nothing. -/
theorem scan_blank (h : Text.isBlank c = true) : Token.scan (c :: cs) = Token.scan cs := by
  rw [Token.scan, if_pos h]

/-- The first token, and those behind it. -/
theorem scan_of_lexeme {t : Token} (hblank : Text.isBlank c = false)
    (h : ∃ hshorter, scanLexeme c cs = .ok ⟨t, rest, hshorter⟩)
    (hrest : Token.scan rest = .ok tokens) : Token.scan (c :: cs) = .ok (t :: tokens) := by
  obtain ⟨hshorter, h⟩ := h
  rw [Token.scan, hblank, if_neg Bool.false_ne_true, h]
  simp only [hrest]

/-- A sign is a token. -/
theorem scan_sign {t : Token} (h : Token.ofSign? c = some t)
    (hrest : Token.scan rest = .ok tokens) : Token.scan (c :: rest) = .ok (t :: tokens) := by
  unfold Token.ofSign? at h
  split at h <;> cases h <;> exact scan_of_lexeme rfl ⟨_, rfl⟩ hrest

/-- A word is read to its end. -/
theorem scan_word (hstart : isWordStart c = true) (hword : ∀ c ∈ cs, isWordChar c = true)
    (hend : EndsWord rest) (hrest : Token.scan rest = .ok tokens) :
    Token.scan (c :: (cs ++ rest)) = .ok (.word (String.ofList (c :: cs)) :: tokens) := by
  have hdigit := not_isDigit_of_isWordStart hstart
  have hquote : c ≠ '\x27' := by rintro rfl; exact absurd hstart (by decide)
  have hdollar : c ≠ '$' := by rintro rfl; exact absurd hstart (by decide)
  refine scan_of_lexeme (not_isBlank_of_isWordChar (isWordChar_of_isWordStart hstart))
    ⟨by simp, ?_⟩ hrest
  simp only [scanLexeme, hdigit, Bool.false_eq_true, if_false, if_neg hquote, if_neg hdollar,
    if_pos hstart, takeWhile_append_of_endsWord hword hend, afterWord_append_of_endsWord hword hend]

/-- A word of digits is read to its end, and is an integer if that is in range. -/
theorem scan_digits (hne : cs ≠ []) (hdigits : ∀ c ∈ cs, c.isDigit)
    (hvalue : (Nat.ofDigitChars 10 cs 0 : Int) = m.toInt) (hend : EndsWord rest)
    (hrest : Token.scan rest = .ok tokens) : Token.scan (cs ++ rest) = .ok (.int m :: tokens) := by
  have hnumber := Integer.natural?_eq_some_iff.2 ⟨⟨hne, hdigits⟩, rfl⟩
  have hnarrow := Integer.narrow?_eq_some_iff.2 hvalue.symm
  obtain ⟨c, cs, rfl⟩ := List.exists_cons_of_ne_nil hne
  have hfirst := hdigits c List.mem_cons_self
  have hword : ∀ c ∈ cs, isWordChar c = true := fun c hc =>
    isWordChar_of_isDigit (hdigits c (List.mem_cons_of_mem _ hc))
  rw [List.cons_append]
  refine scan_of_lexeme (not_isBlank_of_isWordChar (isWordChar_of_isDigit hfirst))
    ⟨by simp, ?_⟩ hrest
  simp only [scanLexeme, if_pos hfirst, scanNumber, takeWhile_append_of_endsWord hword hend,
    afterWord_append_of_endsWord hword hend, hnumber, Option.bind_some, hnarrow]

/-- The numeral of an integer that is not negative is read to its end. -/
theorem scan_numeral (hm : 0 ≤ m) (hend : EndsWord rest) (hrest : Token.scan rest = .ok tokens) :
    Token.scan ((Integer.numeral m).toList ++ rest) = .ok (.int m :: tokens) := by
  rw [Integer.toList_numeral hm]
  refine scan_digits Nat.toDigits_ne_nil
    (fun c hc => Nat.isDigit_of_mem_toDigits (by decide) (by decide) hc) ?_ hend hrest
  rw [Nat.ofDigitChars_ten_toDigits, Int.toNat_of_nonneg (Integer.toInt_nonneg.2 hm)]

/-- A text with each quote written twice. -/
def doubled : List Char → List Char
  | [] => []
  | c :: cs => if c = '\x27' then '\x27' :: '\x27' :: doubled cs else c :: doubled cs

/-- A literal text is read up to the first quote that stands alone. -/
theorem literalBody_doubled (hend : '\x27' ∉ rest.head?) (body : List Char) :
    literalBody (doubled body ++ '\x27' :: rest) = some (body, rest) := by
  induction body with
  | nil =>
    rw [doubled, List.nil_append, literalBody]
    rintro cs rfl
    exact hend rfl
  | cons c body ih =>
    rw [doubled]
    split
    · next hquote => simp [hquote, literalBody, ih]
    · next hquote =>
      rw [List.cons_append, literalBody, ih]
      · rfl
      · exact fun _ hc _ => hquote hc
      · exact hquote

/-- What stands between quotes, each quote in it written twice, is a text. -/
theorem scan_literal (hend : '\x27' ∉ rest.head?) (hrest : Token.scan rest = .ok tokens)
    (s : String) : Token.scan ('\x27' :: (doubled s.toList ++ '\x27' :: rest)) =
      .ok (.text s :: tokens) := by
  have hbody := literalBody_doubled hend s.toList
  have hscan : ∃ hshorter, scanText '\x27' (doubled s.toList ++ '\x27' :: rest) =
      .ok ⟨.text s, rest, hshorter⟩ := by
    refine ⟨by simp; omega, ?_⟩
    unfold scanText
    split
    · next body rest' hread =>
      rw [hbody] at hread
      cases hread
      simp
    · next hnone =>
      rw [hbody] at hnone
      cases hnone
  exact scan_of_lexeme rfl hscan hrest

/-- What stands between braces is a column. -/
theorem scan_column (hcolumn : IsWritable column) (hrest : Token.scan rest = .ok tokens) :
    Token.scan ('$' :: '\x7b' :: (column.toList ++ '\x7d' :: rest)) =
      .ok (.column (columnName column) :: tokens) := by
  have hscan : ∃ hshorter, scanColumn '$' ('\x7b' :: (column.toList ++ '\x7d' :: rest)) =
      .ok ⟨.column (columnName column), rest, hshorter⟩ := by
    have hbody := columnBody_append hcolumn.1 rest
    refine ⟨by simp; omega, ?_⟩
    simp only [scanColumn]
    split
    · next body rest' hread =>
      rw [hbody] at hread
      cases hread
      exact if_neg hcolumn.2
    · next hnone =>
      rw [hbody] at hnone
      cases hnone
  exact scan_of_lexeme rfl hscan hrest

end Expression

end ShardRouting
