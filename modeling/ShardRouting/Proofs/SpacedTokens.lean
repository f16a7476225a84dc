import Mathlib
import ShardRouting.Proofs.NormalNames
import ShardRouting.Proofs.WrittenTokens

/-!
# Tokens with blanks between them

A list of tokens is written down as a text: numbers in digits, texts between quotes, columns between
braces, with blanks around their names if one likes, and at least one blank between any two tokens.
The scanner reads the list back. Neither quotes nor dollar signs nor braces nor blanks inside a text
disturb it, as a quote inside is written twice and the one that closes the text stands in front of a
blank or the end.

* `Token.Written`: how a token is written; `Token.isPrintable_iff`: which tokens can be.
* `Spaced`: how a list of tokens is written.
* `Scanner.turn?`, `Scanner.Ends`: the scanner as a loop, and how a run of it ends.
* `scan_spaced`: the scanner reads back what is written, and its loop ends on every text.
-/

namespace ShardRouting.Expression

variable {c : Char} {cs rest : List Char} {t : Token} {ts : List Token}

/-! ### How tokens are written -/

/-- The sign that a token is written as. -/
def Token.sign? : Token → Option Char
  | .plus => some '+'
  | .minus => some '-'
  | .star => some '*'
  | .slash => some '/'
  | .percent => some '%'
  | .lparen => some '('
  | .rparen => some ')'
  | .comma => some ','
  | _ => none

/-- A token that can be written: a number that is not negative, any text, a word that starts with no
digit, a column whose name is there, is in its compared form with no blanks at its ends, and has no
closing brace in it, or a sign. -/
def Token.IsPrintable : Token → Prop
  | .int i => 0 ≤ i
  | .word name => isPlainName name.toList
  | .column name => name ≠ "" ∧ '\x7d' ∉ name.toList ∧ Text.trim name = name ∧
      Identifier.normalize name = name
  | _ => True

/-- How a token is written. Numbers may have zeros in front, and names of columns blanks around
them. -/
inductive Token.Written : Token → List Char → Prop
  /-- A number is written in digits. -/
  | int {i : Int64} {cs : List Char} (nonempty : cs ≠ []) (digits : ∀ c ∈ cs, c.isDigit)
      (value : (Nat.ofDigitChars 10 cs 0 : Int) = i.toInt) : Written (.int i) cs
  /-- A text is written between quotes, each quote in it twice. -/
  | text (s : String) : Written (.text s) ('\x27' :: (doubled s.toList ++ ['\x27']))
  /-- A word is written as it is. -/
  | word {name : String} (printable : (Token.word name).IsPrintable) :
      Written (.word name) name.toList
  /-- A column is written between braces behind a dollar sign. -/
  | column {name : String} {before behind : List Char}
      (printable : (Token.column name).IsPrintable) (blankBefore : ∀ c ∈ before, Text.isBlank c)
      (blankBehind : ∀ c ∈ behind, Text.isBlank c) :
      Written (.column name) ('$' :: '\x7b' :: (before ++ (name.toList ++ (behind ++ ['\x7d']))))
  /-- A sign is written as itself. -/
  | sign {t : Token} {c : Char} (sign : t.sign? = some c) : Written t [c]

/-- How a list of tokens is written: blanks in front, behind and, at least one, between two. -/
inductive Spaced : List Token → List Char → Prop
  /-- No tokens are written as blanks. -/
  | blanks {gap : List Char} (blank : ∀ c ∈ gap, Text.isBlank c) : Spaced [] gap
  /-- A token is written behind blanks, and the next one does not follow at once. -/
  | token {t : Token} {ts : List Token} {gap cs rest : List Char}
      (blank : ∀ c ∈ gap, Text.isBlank c) (written : t.Written cs) (more : Spaced ts rest)
      (apart : ts ≠ [] → ∃ c ∈ rest.head?, Text.isBlank c) : Spaced (t :: ts) (gap ++ (cs ++ rest))

/-! ### Which tokens can be written -/

theorem ofSign?_eq_some_iff : Token.ofSign? c = some t ↔ t.sign? = some c := by
  constructor
  · intro h
    unfold Token.ofSign? at h
    split at h <;> cases h <;> rfl
  · intro h
    cases t <;> cases h <;> rfl

/-- The tokens that can be written are those for which there is a way to write them. -/
theorem Token.isPrintable_iff : t.IsPrintable ↔ ∃ cs, t.Written cs := by
  constructor
  · intro h
    cases t with
    | int i =>
      refine ⟨Nat.toDigits 10 i.toInt.toNat, .int Nat.toDigits_ne_nil
        (fun c hc => Nat.isDigit_of_mem_toDigits (by decide) (by decide) hc) ?_⟩
      rw [Nat.ofDigitChars_ten_toDigits, Int.toNat_of_nonneg (Integer.toInt_nonneg.2 h)]
    | text s => exact ⟨_, .text s⟩
    | word name => exact ⟨_, .word h⟩
    | column name => exact ⟨_, @Token.Written.column name [] [] h nofun nofun⟩
    | _ => exact ⟨_, .sign rfl⟩
  · rintro ⟨cs, h⟩
    cases h with
    | int _ _ hvalue =>
      rw [IsPrintable, ← Integer.toInt_nonneg, ← hvalue]
      exact Int.natCast_nonneg _
    | text s => trivial
    | word h => exact h
    | column h => exact h
    | sign h => cases t <;> trivial

/-- A list of tokens can be written exactly if each of them can. -/
theorem exists_spaced_iff : (∃ cs, Spaced ts cs) ↔ ∀ t ∈ ts, t.IsPrintable := by
  constructor
  · rintro ⟨cs, h⟩
    induction h with
    | blanks => simp
    | token _ hwritten _ _ ih =>
      simpa using ⟨Token.isPrintable_iff.2 ⟨_, hwritten⟩, ih⟩
  · intro h
    -- a blank in front of each token keeps it apart from the one before it
    suffices hspaced : ∃ cs, Spaced ts (' ' :: cs) from ⟨_, hspaced.choose_spec⟩
    induction ts with
    | nil => exact ⟨[], .blanks (by simp; rfl)⟩
    | cons t ts ih =>
      obtain ⟨hfirst, hothers⟩ := List.forall_mem_cons.1 h
      obtain ⟨cs, hcs⟩ := Token.isPrintable_iff.1 hfirst
      obtain ⟨rest, hrest⟩ := ih hothers
      exact ⟨cs ++ ' ' :: rest, @Spaced.token t ts [' '] cs _ (by simp; rfl) hcs hrest
        fun _ => ⟨' ', rfl, rfl⟩⟩

/-! ### Reading back -/

/-- What follows a token that is kept apart starts with a blank, if there is anything. -/
theorem Spaced.isBlank_head (h : Spaced ts rest)
    (hapart : ts ≠ [] → ∃ c ∈ rest.head?, Text.isBlank c) : ∀ c ∈ rest.head?, Text.isBlank c := by
  intro c hc
  cases h with
  | blanks hblank => exact hblank c (List.mem_of_mem_head? hc)
  | token =>
    obtain ⟨b, hb, hblank⟩ := hapart (List.cons_ne_nil _ _)
    rwa [Option.mem_unique hc hb]

/-- No word goes on into a blank. -/
theorem endsWord_of_isBlank (h : ∀ c ∈ rest.head?, Text.isBlank c) : EndsWord rest := by
  intro c hc
  by_contra hword
  rw [Bool.not_eq_false] at hword
  simpa [not_isBlank_of_isWordChar hword] using h c hc

/-- A written column stands for itself. -/
theorem scan_padded {name : String} {before behind : List Char}
    (h : (Token.column name).IsPrintable) (hbefore : ∀ c ∈ before, Text.isBlank c)
    (hbehind : ∀ c ∈ behind, Text.isBlank c) (hrest : Token.scan rest = .ok ts) :
    Token.scan ('$' :: '\x7b' :: (before ++ (name.toList ++ (behind ++ ['\x7d']))) ++ rest) =
      .ok (.column name :: ts) := by
  obtain ⟨hne, hbrace, htrim, hnormal⟩ := h
  have hbare : Text.trimmed Text.isBlank name.toList = name.toList := by
    have htoList := congrArg String.toList htrim
    rwa [Text.trim, String.toList_ofList] at htoList
  have hinner : Text.trimmed Text.isBlank (before ++ (name.toList ++ behind)) = name.toList :=
    Text.trimmed_append_append hbefore (Text.trimmed_eq_self_iff.1 hbare) hbehind
  have hnotBrace : ∀ c, Text.isBlank c → c ≠ '\x7d' := by
    rintro c hc rfl
    exact absurd hc (by decide)
  have hwritable : IsWritable (String.ofList (before ++ (name.toList ++ behind))) := by
    refine ⟨?_, ?_⟩
    · simp only [String.toList_ofList, List.mem_append, not_or]
      exact ⟨fun h => hnotBrace _ (hbefore _ h) rfl, hbrace, fun h => hnotBrace _ (hbehind _ h) rfl⟩
    · rw [String.toList_ofList, hinner]
      simpa using hne
  have hname : columnName (String.ofList (before ++ (name.toList ++ behind))) = name := by
    rw [columnName, String.toList_ofList, hinner, String.ofList_toList, hnormal]
  have hscan := scan_column hwritable hrest
  rw [hname, String.toList_ofList] at hscan
  simpa using hscan

/-- A token that is written in front of a blank or the end of a text is read. -/
theorem scan_written (h : t.Written cs) (hblank : ∀ c ∈ rest.head?, Text.isBlank c)
    (hrest : Token.scan rest = .ok ts) : Token.scan (cs ++ rest) = .ok (t :: ts) := by
  have hend := endsWord_of_isBlank hblank
  cases h with
  | int hne hdigits hvalue => exact scan_digits hne hdigits hvalue hend hrest
  | text s =>
    have hquote : '\x27' ∉ rest.head? := fun h => absurd (hblank _ h) (by decide)
    simpa using scan_literal hquote hrest s
  | @word name h =>
    rw [Token.IsPrintable] at h
    rcases hname : name.toList with _ | ⟨c, cs⟩
    · rw [hname] at h
      cases h
    · rw [hname, isPlainName, Bool.and_eq_true, List.all_eq_true] at h
      have hscan := scan_word h.1 h.2 hend hrest
      rwa [← hname, String.ofList_toList] at hscan
  | column h hbefore hbehind => exact scan_padded h hbefore hbehind hrest
  | sign h => exact scan_sign (ofSign?_eq_some_iff.2 h) hrest

/-- Blanks in front of a text mean nothing. -/
theorem scan_gap {gap : List Char} (h : ∀ c ∈ gap, Text.isBlank c) (cs : List Char) :
    Token.scan (gap ++ cs) = Token.scan cs := by
  induction gap with
  | nil => rfl
  | cons c gap ih =>
    obtain ⟨hc, hgap⟩ := List.forall_mem_cons.1 h
    rw [List.cons_append, scan_blank hc, ih hgap]

/-- The tokens that are written are read. -/
theorem Spaced.scan (h : Spaced ts cs) : Token.scan cs = .ok ts := by
  induction h with
  | @blanks gap hblank =>
    have hgap := scan_gap hblank []
    rw [List.append_nil] at hgap
    rw [hgap, Token.scan]
  | token hgap hwritten hmore hapart ih =>
    rw [scan_gap hgap]
    exact scan_written hwritten (hmore.isBlank_head hapart) ih

/-! ### The scanner as a loop -/

/-- The state of a scanner: the text that is left, and the tokens so far. -/
structure Scanner where
  /-- The text that is left. -/
  left : List Char
  /-- The tokens so far. -/
  tokens : List Token

namespace Scanner

/-- One turn of the loop, unless the text is at its end: a blank is skipped, or a token is read. -/
def turn? (s : Scanner) : Option (Except ScanError Scanner) :=
  match s.left with
  | [] => none
  | c :: cs =>
    if Text.isBlank c then some (.ok ⟨cs, s.tokens⟩)
    else
      match scanLexeme c cs with
      | .ok lexeme => some (.ok ⟨lexeme.rest, s.tokens ++ [lexeme.token]⟩)
      | .error e => some (.error e)

/-- A run of the loop ends after a number of turns, with all tokens or with a fault. -/
inductive Ends : Scanner → Nat → Except ScanError (List Token) → Prop
  /-- The text is at its end. -/
  | done {s : Scanner} (atEnd : s.turn? = none) : Ends s 0 (.ok s.tokens)
  /-- There is no token. -/
  | failed {s : Scanner} {e : ScanError} (fault : s.turn? = some (.error e)) : Ends s 1 (.error e)
  /-- There is one, or a blank, and the loop goes on. -/
  | goesOn {s next : Scanner} {n : Nat} {result : Except ScanError (List Token)}
      (turn : s.turn? = some (.ok next)) (more : Ends next n result) : Ends s (n + 1) result

/-- A run has one end. -/
theorem Ends.unique {s : Scanner} {m n : Nat} {r r' : Except ScanError (List Token)}
    (h : Ends s m r) (h' : Ends s n r') : m = n ∧ r = r' := by
  induction h generalizing n with
  | done hnone =>
    cases h' with
    | done => exact ⟨rfl, rfl⟩
    | failed hturn | goesOn hturn => simp [hnone] at hturn
  | failed hfault =>
    cases h' with
    | failed hturn =>
      rw [hfault] at hturn
      cases hturn
      exact ⟨rfl, rfl⟩
    | done hturn | goesOn hturn => simp [hfault] at hturn
  | goesOn hturn _ ih =>
    cases h' with
    | goesOn hturn' hmore =>
      rw [hturn] at hturn'
      cases hturn'
      obtain ⟨rfl, rfl⟩ := ih hmore
      exact ⟨rfl, rfl⟩
    | done hturn' | failed hturn' => simp [hturn] at hturn'

/-- A run ends after at most as many turns as there are characters left, with what the scanner
makes of these. -/
theorem exists_ends (left : List Char) (tokens : List Token) :
    ∃ n ≤ left.length, Ends ⟨left, tokens⟩ n ((Token.scan left).map (tokens ++ ·)) := by
  fun_induction Token.scan left generalizing tokens with
  | case1 =>
    exact ⟨0, Nat.le_refl 0, by simpa [Except.map] using @Ends.done ⟨[], tokens⟩ rfl⟩
  | case2 c cs hblank ih =>
    obtain ⟨n, hn, hends⟩ := ih tokens
    exact ⟨n + 1, Nat.succ_le_succ hn, .goesOn (by simp [turn?, hblank]) hends⟩
  | case3 c cs hblank e hfault =>
    exact ⟨1, Nat.succ_le_succ (Nat.zero_le _), .failed (by simp [turn?, hblank, hfault])⟩
  | case4 c cs hblank lexeme hlexeme hshorter e hrest ih =>
    obtain ⟨n, hn, hends⟩ := ih (tokens ++ [lexeme.token])
    rw [hrest] at hends
    exact ⟨n + 1, hn.trans_lt hshorter, .goesOn (by simp [turn?, hblank, hlexeme]) hends⟩
  | case5 c cs hblank lexeme hlexeme hshorter ts hrest ih =>
    obtain ⟨n, hn, hends⟩ := ih (tokens ++ [lexeme.token])
    rw [hrest] at hends
    have hturn : turn? ⟨c :: cs, tokens⟩ = some (.ok ⟨lexeme.rest, tokens ++ [lexeme.token]⟩) := by
      simp [turn?, hblank, hlexeme]
    exact ⟨n + 1, hn.trans_lt hshorter, .goesOn hturn (by simpa [Except.map] using hends)⟩

end Scanner

/-! ### Everything that is written is read back -/

/-- Whatever tokens are written, with blanks between them and whatever blanks at the ends, the
scanner reads them back; any list of tokens that can be written singly can be written so. On every
text the scanner's loop ends, after at most one turn for each character, in one way only: with what
`Token.scan` says. -/
theorem scan_spaced :
    (∀ ts cs, Spaced ts cs → Token.scan cs = .ok ts) ∧
      (∀ ts, (∃ cs, Spaced ts cs) ↔ ∀ t ∈ ts, t.IsPrintable) ∧
      ∀ cs, ∃ n ≤ cs.length, ∀ m result,
        Scanner.Ends ⟨cs, []⟩ m result ↔ m = n ∧ result = Token.scan cs := by
  refine ⟨fun ts cs h => h.scan, fun ts => exists_spaced_iff, fun cs => ?_⟩
  obtain ⟨n, hn, hends⟩ := Scanner.exists_ends cs []
  have hmap : (Token.scan cs).map ([] ++ ·) = Token.scan cs := by
    cases Token.scan cs <;> rfl
  rw [hmap] at hends
  refine ⟨n, hn, fun m result => ⟨fun h => h.unique hends, ?_⟩⟩
  rintro ⟨rfl, rfl⟩
  exact hends

/-- A number with zeros in front, a text with a quote in it right in front of its last quote, a
column whose name holds a blank, a word and a sign. -/
theorem scan_spaced_tokens :
    Spaced [.int 7, .text "it's $\x7b'", .column "a b", .word "crc32", .plus]
        " 007 'it''s $\x7b'''\t$\x7b a b \x7d crc32 +".toList ∧
      Token.scan " 007 'it''s $\x7b'''\t$\x7b a b \x7d crc32 +".toList =
        .ok [.int 7, .text "it's $\x7b'", .column "a b", .word "crc32", .plus] := by
  have hblank : ∀ c ∈ [' '], Text.isBlank c := by
    simp
    rfl
  have hname : (Token.column "a b").IsPrintable := ⟨by decide, by decide, rfl, rfl⟩
  have hsign : Spaced [.plus] " +".toList :=
    @Spaced.token _ _ [' '] _ _ hblank (.sign rfl) (.blanks (by simp)) (by simp)
  have hword : Spaced [.word "crc32", .plus] " crc32 +".toList :=
    @Spaced.token _ _ [' '] _ _ hblank (@Token.Written.word "crc32" rfl) hsign (by simp; rfl)
  have hcolumn : Spaced [.column "a b", .word "crc32", .plus] "\t$\x7b a b \x7d crc32 +".toList :=
    @Spaced.token _ _ ['\t'] _ _ (by simp; rfl) (.column hname hblank hblank) hword (by simp; rfl)
  have htext : Spaced [.text "it's $\x7b'", .column "a b", .word "crc32", .plus]
      " 'it''s $\x7b'''\t$\x7b a b \x7d crc32 +".toList :=
    @Spaced.token _ _ [' '] _ _ hblank (.text _) hcolumn (by simp; rfl)
  have hspaced : Spaced [.int 7, .text "it's $\x7b'", .column "a b", .word "crc32", .plus]
      " 007 'it''s $\x7b'''\t$\x7b a b \x7d crc32 +".toList :=
    @Spaced.token _ _ [' '] ['0', '0', '7'] _ hblank (.int (by simp) (by simp) rfl) htext
      (by simp; rfl)
  exact ⟨hspaced, scan_spaced.1 _ _ hspaced⟩

end ShardRouting.Expression
