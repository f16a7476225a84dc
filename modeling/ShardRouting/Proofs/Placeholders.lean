import ShardRouting.Proofs.NormalNames
import ShardRouting.Rule

/-!
# Placeholders in the text of an expression

The columns of an expression are found twice: the scanner reads every placeholder, whatever its name
is made of, while the search for undeclared columns knows only names of letters, digits and
underscores. Here the two are held against each other.

* `Spells cs name`: the text `cs` writes `name` in a placeholder.
* `spells_of_mem_scan`: a column among the tokens is written in the text.
* `mem_plainPlaceholders_of_spells`: a plain name that is written is found by the search.
-/

namespace ShardRouting

namespace Expression

/-- A text writes a name in a placeholder: between a dollar sign with an opening brace and the
first closing brace behind it, the blanks around the name left out. -/
def Spells (cs name : List Char) : Prop :=
  ∃ body, '$' :: '\x7b' :: (body ++ ['\x7d']) <:+: cs ∧ '\x7d' ∉ body ∧
    Text.trimmed Text.isBlank body = name

/-- Whether a name is made of letters, digits and underscores, and starts with no digit. -/
def isPlainName : List Char → Bool
  | [] => false
  | c :: cs => isWordStart c && cs.all isWordChar

/-- What a part of a text writes the text writes. -/
theorem Spells.of_suffix {part cs name : List Char} (hs : part <:+ cs) :
    Spells part name → Spells cs name := by
  rintro ⟨body, hbody, hbrace, hname⟩
  exact ⟨body, hbody.trans hs.isInfix, hbrace, hname⟩

/-! ### The scanner -/

/-- The body of a placeholder ends at the first closing brace. -/
theorem eq_append_of_columnBody {cs body rest : List Char}
    (h : columnBody cs = some (body, rest)) : cs = body ++ '\x7d' :: rest ∧ '\x7d' ∉ body := by
  fun_induction columnBody cs generalizing body rest with
  | case1 => cases h
  | case2 cs => cases h; simp
  | case3 c cs hne ih =>
    obtain ⟨⟨b, r⟩, hb, he⟩ := Option.map_eq_some_iff.1 h
    cases he
    obtain ⟨hcs, hbrace⟩ := ih hb
    refine ⟨by rw [hcs]; rfl, ?_⟩
    rintro (_ | ⟨_, hmem⟩)
    · exact hne rfl
    · exact hbrace hmem

/-- What is behind a literal text is the end of the text it was read from. -/
theorem suffix_of_literalBody {cs body rest : List Char}
    (h : literalBody cs = some (body, rest)) : rest <:+ cs := by
  fun_induction literalBody cs generalizing body rest with
  | case1 => cases h
  | case2 cs ih =>
    obtain ⟨⟨b, r⟩, hb, he⟩ := Option.map_eq_some_iff.1 h
    cases he
    exact (ih hb).trans (List.suffix_append ['\x27', '\x27'] cs)
  | case3 cs => cases h; exact List.suffix_cons _ _
  | case4 c cs _ _ ih =>
    obtain ⟨⟨b, r⟩, hb, he⟩ := Option.map_eq_some_iff.1 h
    cases he
    exact (ih hb).trans (List.suffix_cons _ _)

theorem suffix_afterWord (cs : List Char) : afterWord cs <:+ cs :=
  List.dropWhile_suffix _

/-- A placeholder is read where one is written. -/
theorem spells_of_scanColumn {c : Char} {cs : List Char} {lexeme : Lexeme (c :: cs)}
    (h : scanColumn c cs = .ok lexeme) :
    lexeme.rest <:+ cs ∧ ∃ name, Spells ('$' :: cs) name ∧ name ≠ [] ∧
      lexeme.token = .column (Identifier.normalize (String.ofList name)) := by
  unfold scanColumn at h
  split at h
  · next cs' =>
    split at h
    · next body rest hbody =>
      simp only at h
      split at h
      · cases h
      · next hne =>
        cases h
        obtain ⟨rfl, hbrace⟩ := eq_append_of_columnBody hbody
        refine ⟨⟨'\x7b' :: (body ++ ['\x7d']), by simp⟩, _, ⟨body, ?_, hbrace, rfl⟩, hne, rfl⟩
        exact ⟨[], rest, by simp⟩
    · cases h
  · cases h

/-- A lexeme leaves an end of the text. -/
theorem suffix_of_scanLexeme {c : Char} {cs : List Char} {lexeme : Lexeme (c :: cs)}
    (h : scanLexeme c cs = .ok lexeme) : lexeme.rest <:+ cs := by
  unfold scanLexeme at h
  split at h
  · unfold scanNumber at h
    simp only at h
    split at h
    · cases h; exact suffix_afterWord cs
    · cases h
  · split at h
    · unfold scanText at h
      split at h
      · next hbody => cases h; exact suffix_of_literalBody hbody
      · cases h
    · split at h
      · exact (spells_of_scanColumn h).1
      · split at h
        · cases h; exact suffix_afterWord cs
        · split at h
          · cases h; exact List.suffix_refl cs
          · cases h

/-- No character that is a token by itself is a column. -/
theorem ofSign?_ne_column {c : Char} {n : String} : Token.ofSign? c ≠ some (.column n) := by
  unfold Token.ofSign?
  split <;> simp

/-- A column at the start of a text is written there. -/
theorem spells_of_scanLexeme {c : Char} {cs : List Char} {lexeme : Lexeme (c :: cs)} {n : String}
    (h : scanLexeme c cs = .ok lexeme) (hn : lexeme.token = .column n) :
    ∃ name, Spells (c :: cs) name ∧ name ≠ [] ∧
      Identifier.normalize (String.ofList name) = n := by
  unfold scanLexeme at h
  split at h
  · unfold scanNumber at h
    simp only at h
    split at h <;> cases h
    cases hn
  · split at h
    · unfold scanText at h
      split at h <;> cases h
      cases hn
    · split at h
      · next hc =>
        subst hc
        obtain ⟨-, name, hspells, hne, htoken⟩ := spells_of_scanColumn h
        obtain rfl := Token.column.inj (hn.symm.trans htoken)
        exact ⟨name, hspells, hne, rfl⟩
      · split at h
        · cases h; cases hn
        · split at h
          · next t hsign =>
            cases h
            obtain rfl : t = .column n := hn
            exact absurd hsign ofSign?_ne_column
          · cases h

/-- A column among the tokens of a text is written in it. -/
theorem spells_of_mem_scan {cs : List Char} {tokens : List Token} {n : String}
    (h : Token.scan cs = .ok tokens) (hn : .column n ∈ tokens) :
    ∃ name, Spells cs name ∧ name ≠ [] ∧ Identifier.normalize (String.ofList name) = n := by
  fun_induction Token.scan cs generalizing tokens with
  | case1 => cases h; cases hn
  | case2 c cs hblank ih =>
    obtain ⟨name, hspells, hname⟩ := ih h hn
    exact ⟨name, hspells.of_suffix (List.suffix_cons c cs), hname⟩
  | case3 => cases h
  | case4 => cases h
  | case5 c cs hblank lexeme hlexeme _ rest hrest ih =>
    cases h
    rcases List.mem_cons.1 hn with hhead | htail
    · exact spells_of_scanLexeme hlexeme hhead.symm
    · obtain ⟨name, hspells, hname⟩ := ih hrest htail
      exact ⟨name, hspells.of_suffix
        ((suffix_of_scanLexeme hlexeme).trans (List.suffix_cons c cs)), hname⟩

/-! ### The search for plain names -/

/-- A character of a word is not blank. -/
theorem not_isBlank_of_isWordChar {c : Char} (h : isWordChar c) : Text.isBlank c = false := by
  by_contra hb
  have hmem : c ∈ Text.blanks := by simpa [Text.isBlank] using hb
  have hall : (Text.blanks.all fun b => !isWordChar b) = true := by decide
  have hnot := List.all_eq_true.1 hall c hmem
  rw [h] at hnot
  cases hnot

/-- Every character of a plain name is one of a word. -/
theorem isWordChar_of_isPlainName {name : List Char} (h : isPlainName name) :
    ∀ c ∈ name, isWordChar c := by
  cases name with
  | nil => cases h
  | cons c cs =>
    rw [isPlainName, Bool.and_eq_true, List.all_eq_true] at h
    intro x hx
    rcases List.mem_cons.1 hx with rfl | hx
    · have hstart := h.1
      simp only [isWordStart, isWordChar, Char.isAlphanum, Bool.or_eq_true] at hstart ⊢
      exact hstart.imp_left Or.inl
    · exact h.2 x hx

/-- A plain name between blanks in front of a closing brace is read as such. -/
theorem plainPlaceholder?_of_isPlainName {body : List Char}
    (h : isPlainName (Text.trimmed Text.isBlank body)) (rest : List Char) :
    Rule.plainPlaceholder? (body ++ '\x7d' :: rest) = some (Text.trimmed Text.isBlank body) := by
  obtain ⟨before, behind, hbefore, hbehind, hbody⟩ :=
    Text.exists_append_trimmed Text.isBlank body
  have hword := isWordChar_of_isPlainName h
  generalize Text.trimmed Text.isBlank body = name at h hword hbody
  subst hbody
  have hinner : (before ++ (name ++ behind) ++ '\x7d' :: rest).dropWhile Text.isBlank =
      name ++ (behind ++ '\x7d' :: rest) := by
    rw [List.append_assoc, List.append_assoc, List.dropWhile_append_of_pos hbefore]
    cases name with
    | nil => cases h
    | cons c cs =>
      rw [List.cons_append, List.dropWhile_cons_of_neg]
      simp [not_isBlank_of_isWordChar (hword c (by simp))]
  have hstop : ∀ l : List Char, (behind ++ '\x7d' :: l).takeWhile isWordChar = [] ∧
      (behind ++ '\x7d' :: l).dropWhile isWordChar = behind ++ '\x7d' :: l := by
    intro l
    cases behind with
    | nil => exact ⟨rfl, rfl⟩
    | cons b bs =>
      have hb : ¬ isWordChar b := fun hw => by
        have := not_isBlank_of_isWordChar hw
        rw [hbehind b (by simp)] at this
        cases this
      rw [List.cons_append, List.takeWhile_cons_of_neg hb, List.dropWhile_cons_of_neg hb]
      exact ⟨rfl, rfl⟩
  unfold Rule.plainPlaceholder?
  simp only [hinner, List.takeWhile_append_of_pos hword, List.dropWhile_append_of_pos hword,
    (hstop rest).1, (hstop rest).2, List.append_nil, List.dropWhile_append_of_pos hbehind]
  cases name with
  | nil => cases h
  | cons c cs =>
    rw [isPlainName, Bool.and_eq_true] at h
    rw [List.dropWhile_cons_of_neg (by decide)]
    simp only [h.1, if_true]

/-- The search passes over a character at the front. -/
theorem plainPlaceholders_subset_cons (c : Char) (cs : List Char) :
    Rule.plainPlaceholders cs ⊆ Rule.plainPlaceholders (c :: cs) := by
  intro name hname
  rw [Rule.plainPlaceholders.eq_def]
  split
  · next cs' hcs =>
    injection hcs with _ hcs
    have hbrace : Rule.plainPlaceholders ('\x7b' :: cs') = Rule.plainPlaceholders cs' := by
      rw [Rule.plainPlaceholders]
      simp
    rw [hcs, hbrace] at hname
    split
    · exact List.mem_cons_of_mem _ hname
    · exact hname
  · next hcs => injection hcs with _ hcs; exact hcs ▸ hname
  · next hcs => cases hcs

/-- The search finds every plain name that a text writes in a placeholder. -/
theorem mem_plainPlaceholders_of_spells {cs name : List Char} (h : Spells cs name)
    (hplain : isPlainName name) : name ∈ Rule.plainPlaceholders cs := by
  obtain ⟨body, ⟨front, rest, rfl⟩, -, rfl⟩ := h
  induction front with
  | nil =>
    have hread := plainPlaceholder?_of_isPlainName hplain rest
    have hcs : [] ++ '$' :: '\x7b' :: (body ++ ['\x7d']) ++ rest =
        '$' :: '\x7b' :: (body ++ '\x7d' :: rest) := by simp
    rw [hcs, Rule.plainPlaceholders, hread]
    exact List.mem_cons_self
  | cons c front ih => exact plainPlaceholders_subset_cons c _ ih

end Expression

end ShardRouting
