import Mathlib
import ShardRouting.Proofs.Accepted
import ShardRouting.Proofs.Grammar
import ShardRouting.Proofs.ParsedColumns

/-!
# Declared columns

A rule with an expression is accepted if the placeholders in it are declared. What counts as a
placeholder is decided by a search of the text, which knows plain names only and does not see what
is literal; what the expression reads is decided by the scanner. So the search misses columns whose
names are not plain, and finds some in literal texts that are no columns at all.

* `mem_plainPlaceholders_iff`: the search finds the plain names that a text writes in placeholders,
  and no others.
* `Token.exists_of_spells_scan`: where a plain name that a text writes goes: it is a column, or part
  of a literal text, or part of a column with a dollar sign in its name.
* `Derives.leaves_eq`: the operands of an expression are those of its tokens.
* `Rule.exists_build_iff_declares`: when a rule is accepted, and when that is the same as all
  columns of its expression being declared.
* `Rule.not_exists_build_iff_declares`: an undeclared column that is accepted, and an expression
  without undeclared columns that is not.
-/

namespace ShardRouting

/-- The compared form of an identifier has the dollar signs that the identifier has. -/
theorem Identifier.dollar_mem_normalChars {cs : List Char} :
    '$' ∈ normalChars cs ↔ '$' ∈ cs := by
  unfold normalChars
  rw [List.mem_map]
  constructor
  · rintro ⟨c, hc, hlower⟩
    rw [(Identifier.toLower_eq_iff (by decide)).1 hlower] at hc
    exact Text.mem_of_mem_trimmed (Text.mem_of_mem_trimmed hc)
  · intro h
    exact ⟨'$', Text.mem_trimmed (Text.mem_trimmed h (by decide)) (by decide), rfl⟩

namespace Expression

/-- A text writes a column plainly if it writes a plain name in a placeholder, and the compared form
of that name is the column. -/
def WritesPlainly (cs : List Char) (n : String) : Prop :=
  ∃ name, Spells cs name ∧ isPlainName name ∧ Identifier.normalize (String.ofList name) = n

/-- The name of a column that is written plainly holds no dollar sign. -/
theorem WritesPlainly.dollar_not_mem {cs : List Char} {n : String} (h : WritesPlainly cs n) :
    '$' ∉ n.toList := by
  obtain ⟨name, -, hplain, rfl⟩ := h
  rw [Identifier.normalize, String.toList_ofList, String.toList_ofList,
    Identifier.dollar_mem_normalChars]
  intro hmem
  exact absurd (isWordChar_of_isPlainName hplain _ hmem) (by decide)

/-! ### The search -/

/-- What the search reads behind an opening brace is a plain name that is written there. -/
theorem spells_of_plainPlaceholder? {cs name : List Char}
    (h : Rule.plainPlaceholder? cs = some name) :
    Spells ('$' :: '\x7b' :: cs) name ∧ isPlainName name := by
  unfold Rule.plainPlaceholder? at h
  simp only at h
  split at h
  · next c word rest hname hbehind =>
    split at h
    · next hstart =>
      cases h
      rw [hname]
      have hword : ∀ x ∈ c :: word, isWordChar x := by
        rw [← hname]
        exact fun x hx => List.mem_takeWhile_imp hx
      -- the text is blanks, the name, blanks and a brace
      obtain ⟨behind, hbehindBlank, hcs⟩ : ∃ behind, (∀ x ∈ behind, Text.isBlank x) ∧
          cs = cs.takeWhile Text.isBlank ++ ((c :: word) ++ (behind ++ '\x7d' :: rest)) := by
        refine ⟨((cs.dropWhile Text.isBlank).dropWhile isWordChar).takeWhile Text.isBlank,
          fun x hx => List.mem_takeWhile_imp hx, ?_⟩
        rw [← hbehind, List.takeWhile_append_dropWhile, ← hname,
          List.takeWhile_append_dropWhile, List.takeWhile_append_dropWhile]
      have hfront : ∀ x ∈ cs.takeWhile Text.isBlank, Text.isBlank x :=
        fun x hx => List.mem_takeWhile_imp hx
      refine ⟨⟨cs.takeWhile Text.isBlank ++ ((c :: word) ++ behind), ?_, ?_, ?_⟩, ?_⟩
      · refine ⟨[], rest, ?_⟩
        conv_rhs => rw [hcs]
        simp
      · intro hbrace
        rw [List.mem_append, List.mem_append] at hbrace
        rcases hbrace with hbrace | hbrace | hbrace
        · exact absurd (hfront _ hbrace) (by decide)
        · exact absurd (hword _ hbrace) (by decide)
        · exact absurd (hbehindBlank _ hbrace) (by decide)
      · exact Text.trimmed_append_append hfront
          (.of_forall fun x hx => not_isBlank_of_isWordChar (hword x hx)) hbehindBlank
      · rw [isPlainName, hstart, Bool.true_and, List.all_eq_true]
        exact fun x hx => hword x (List.mem_cons_of_mem _ hx)
    · cases h
  · cases h

/-- The search finds the plain names that a text writes in placeholders, and no others. -/
theorem mem_plainPlaceholders_iff {cs name : List Char} :
    name ∈ Rule.plainPlaceholders cs ↔ Spells cs name ∧ isPlainName name := by
  refine ⟨fun h => ?_, fun h => mem_plainPlaceholders_of_spells h.1 h.2⟩
  fun_induction Rule.plainPlaceholders cs with
  | case1 cs found hfound ih =>
    rcases List.mem_cons.1 h with rfl | h
    · exact spells_of_plainPlaceholder? hfound
    · exact (ih h).imp_left fun hs => hs.of_suffix (List.suffix_append ['$', '\x7b'] cs)
  | case2 cs hnone ih =>
    exact (ih h).imp_left fun hs => hs.of_suffix (List.suffix_append ['$', '\x7b'] cs)
  | case3 c cs hne ih => exact (ih h).imp_left fun hs => hs.of_suffix (List.suffix_cons c cs)
  | case4 => cases h

/-- A text writes plainly what the search finds in it. -/
theorem writesPlainly_iff {cs : List Char} {n : String} : WritesPlainly cs n ↔
    ∃ name ∈ Rule.plainPlaceholders cs, Identifier.normalize (String.ofList name) = n := by
  simp only [WritesPlainly, mem_plainPlaceholders_iff, and_assoc]

/-! ### The scanner -/

/-- What a text writes behind a character that is no dollar sign stands in the rest of it. -/
theorem Spells.of_cons {c : Char} {cs name : List Char} (h : Spells (c :: cs) name)
    (hc : c ≠ '$') : Spells cs name := by
  obtain ⟨body, hbody, hbrace, hname⟩ := h
  rcases List.infix_cons_iff.1 hbody with hfront | hrest
  · exact absurd (List.cons_prefix_cons.1 hfront).1.symm hc
  · exact ⟨body, hrest, hbrace, hname⟩

/-- No word holds a dollar sign, so that what a text writes stands behind a word in front of it. -/
theorem Spells.afterWord {cs name : List Char} (h : Spells cs name) :
    Spells (Expression.afterWord cs) name := by
  unfold Expression.afterWord
  induction cs with
  | nil => exact h
  | cons c cs ih =>
    by_cases hc : isWordChar c
    · rw [List.dropWhile_cons_of_pos hc]
      exact ih (h.of_cons (by rintro rfl; exact absurd hc (by decide)))
    · rw [List.dropWhile_cons_of_neg hc]
      exact h

/-- What is written behind the opening brace of a placeholder stands behind its closing one, or the
name of the placeholder holds a dollar sign. -/
theorem Spells.of_append {body rest name : List Char} (h : Spells (body ++ '\x7d' :: rest) name) :
    '$' ∈ body ∨ Spells rest name := by
  induction body with
  | nil => exact Or.inr (h.of_cons (by decide))
  | cons c body ih =>
    by_cases hc : c = '$'
    · exact Or.inl (hc ▸ List.mem_cons_self)
    · exact (ih (h.of_cons hc)).imp_left (List.mem_cons_of_mem c)

/-- The front of a literal text without quotes stands in front of its contents. -/
theorem prefix_body_of_literalBody {part cs body rest : List Char} (hquote : '\x27' ∉ part)
    (hpart : part <+: cs) (h : literalBody cs = some (body, rest)) : part <+: body := by
  induction part generalizing cs body with
  | nil => exact List.nil_prefix
  | cons c part ih =>
    obtain ⟨behind, rfl⟩ := hpart
    have hc : c ≠ '\x27' := fun he => hquote (he ▸ List.mem_cons_self)
    rw [List.cons_append, literalBody.eq_def] at h
    split at h
    · next heq => cases heq
    · next heq => exact absurd (List.cons.inj heq).1 hc
    · next heq => exact absurd (List.cons.inj heq).1 hc
    · next heq =>
      obtain ⟨rfl, rfl⟩ := List.cons.inj heq
      obtain ⟨⟨b, r⟩, hb, he⟩ := Option.map_eq_some_iff.1 h
      cases he
      exact (List.prefix_cons_inj c).2
        (ih (fun hq => hquote (List.mem_cons_of_mem _ hq)) (List.prefix_append _ _) hb)

/-- A part without quotes that begins in a literal text ends in it. -/
theorem infix_of_literalBody {part cs body rest : List Char} (hquote : '\x27' ∉ part)
    (hne : part ≠ []) (hpart : part <:+: cs) (h : literalBody cs = some (body, rest)) :
    part <:+: body ∨ part <:+: rest := by
  have hhead : ∀ {l : List Char}, part <:+: '\x27' :: l → part <:+: l := by
    intro l hl
    rcases List.infix_cons_iff.1 hl with hfront | hrest
    · obtain ⟨c, part, rfl⟩ := List.exists_cons_of_ne_nil hne
      exact absurd (List.cons_prefix_cons.1 hfront).1 fun he => hquote (he ▸ List.mem_cons_self)
    · exact hrest
  fun_induction literalBody cs generalizing body rest with
  | case1 => cases h
  | case2 cs ih =>
    obtain ⟨⟨b, r⟩, hb, he⟩ := Option.map_eq_some_iff.1 h
    cases he
    refine (ih (hhead (hhead hpart)) hb).imp_left fun hi => ?_
    exact hi.trans (List.infix_cons (List.infix_refl b))
  | case3 cs => cases h; exact Or.inr (hhead hpart)
  | case4 c cs hne' hne'' ih =>
    rcases List.infix_cons_iff.1 hpart with hfront | hrest
    · have hcons : literalBody (c :: cs) = some (body, rest) := by
        rw [literalBody] <;> assumption
      exact Or.inl (prefix_body_of_literalBody hquote hfront hcons).isInfix
    · obtain ⟨⟨b, r⟩, hb, he⟩ := Option.map_eq_some_iff.1 h
      cases he
      exact (ih hrest hb).imp_left fun hi => hi.trans (List.infix_cons (List.infix_refl b))

/-- The front of the contents of a literal text, if it has no quotes, stands in front of the literal
text. -/
theorem prefix_of_prefix_body {part cs body rest : List Char} (hquote : '\x27' ∉ part)
    (hpart : part <+: body) (h : literalBody cs = some (body, rest)) : part <+: cs := by
  fun_induction literalBody cs generalizing part body rest with
  | case1 => cases h
  | case2 cs ih =>
    obtain ⟨⟨b, r⟩, hb, he⟩ := Option.map_eq_some_iff.1 h
    cases he
    cases part with
    | nil => exact List.nil_prefix
    | cons c part =>
      exact absurd (List.cons_prefix_cons.1 hpart).1 fun he => hquote (he ▸ List.mem_cons_self)
  | case3 cs => cases h; exact hpart.trans List.nil_prefix
  | case4 c cs _ _ ih =>
    obtain ⟨⟨b, r⟩, hb, he⟩ := Option.map_eq_some_iff.1 h
    cases he
    cases part with
    | nil => exact List.nil_prefix
    | cons x part =>
      obtain ⟨rfl, hrest⟩ := List.cons_prefix_cons.1 hpart
      exact (List.prefix_cons_inj x).2
        (ih (fun hq => hquote (List.mem_cons_of_mem _ hq)) hrest hb)

/-- A part of the contents of a literal text, if it has no quotes, is a part of the literal text. -/
theorem infix_of_infix_body {part cs body rest : List Char} (hquote : '\x27' ∉ part)
    (hpart : part <:+: body) (h : literalBody cs = some (body, rest)) : part <:+: cs := by
  fun_induction literalBody cs generalizing body rest with
  | case1 => cases h
  | case2 cs ih =>
    obtain ⟨⟨b, r⟩, hb, he⟩ := Option.map_eq_some_iff.1 h
    cases he
    have hb' : part <:+: b := by
      rcases List.infix_cons_iff.1 hpart with hfront | hrest
      · cases part with
        | nil => exact List.nil_infix
        | cons c part =>
          exact absurd (List.cons_prefix_cons.1 hfront).1 fun he => hquote (he ▸ List.mem_cons_self)
      · exact hrest
    exact (ih hb' hb).trans ((List.suffix_append ['\x27', '\x27'] cs).isInfix)
  | case3 cs => cases h; exact hpart.trans List.nil_infix
  | case4 c cs hne hne' ih =>
    have hcons : literalBody (c :: cs) = some (body, rest) := by
      rw [literalBody] <;> assumption
    obtain ⟨⟨b, r⟩, hb, he⟩ := Option.map_eq_some_iff.1 h
    cases he
    rcases List.infix_cons_iff.1 hpart with hfront | hrest
    · exact (prefix_of_prefix_body hquote hfront hcons).isInfix
    · exact List.infix_cons (ih hrest hb)

/-- A placeholder with a plain name holds no quotes. -/
theorem quote_not_mem_of_isPlainName {body : List Char}
    (h : isPlainName (Text.trimmed Text.isBlank body)) :
    '\x27' ∉ '$' :: '\x7b' :: (body ++ ['\x7d']) := by
  have hbody : '\x27' ∉ body := fun hmem =>
    absurd (isWordChar_of_isPlainName h _ (Text.mem_trimmed hmem (by decide))) (by decide)
  simpa using hbody

/-- A plain name that is written where a literal text begins is written in its contents or behind
it. -/
theorem Spells.of_literalBody {cs body rest name : List Char}
    (h : literalBody cs = some (body, rest)) (hplain : isPlainName name) (hs : Spells cs name) :
    Spells body name ∨ Spells rest name := by
  obtain ⟨inner, hinner, hbrace, rfl⟩ := hs
  exact (infix_of_literalBody (quote_not_mem_of_isPlainName hplain) (List.cons_ne_nil _ _) hinner
    h).imp (fun hi => ⟨inner, hi, hbrace, rfl⟩) fun hi => ⟨inner, hi, hbrace, rfl⟩

/-- A plain name that is written in the contents of a literal text is written in the text. -/
theorem Spells.of_body {cs body rest name : List Char} (h : literalBody cs = some (body, rest))
    (hplain : isPlainName name) (hs : Spells body name) : Spells cs name := by
  obtain ⟨inner, hinner, hbrace, rfl⟩ := hs
  exact ⟨inner, infix_of_infix_body (quote_not_mem_of_isPlainName hplain) hinner h, hbrace, rfl⟩

/-- Where a plain name goes that a text writes in a placeholder: it is that of a column, or it is
written in a literal text, or in a column with a dollar sign in its name. -/
def Token.Holds (name : List Char) : Token → Prop
  | .column n => n = Identifier.normalize (String.ofList name) ∨ '$' ∈ n.toList
  | .text s => Spells s.toList name
  | _ => False

/-- A placeholder is read up to its closing brace. -/
theorem columnBody_append {body : List Char} (hbrace : '\x7d' ∉ body) (rest : List Char) :
    columnBody (body ++ '\x7d' :: rest) = some (body, rest) := by
  induction body with
  | nil => rfl
  | cons c body ih =>
    have hc : c ≠ '\x7d' := fun he => hbrace (he ▸ List.mem_cons_self)
    rw [List.cons_append, columnBody, ih fun h => hbrace (List.mem_cons_of_mem _ h)]
    · rfl
    · exact hc

/-- A name at the start of a placeholder is held by it, or written behind it. -/
theorem holds_of_scanColumn {cs name : List Char} {lexeme : Lexeme ('$' :: cs)}
    (h : scanColumn '$' cs = .ok lexeme) (hs : Spells ('$' :: cs) name) :
    lexeme.token.Holds name ∨ Spells lexeme.rest name := by
  unfold scanColumn at h
  split at h
  · next cs =>
    split at h
    · next body rest hbody =>
      simp only at h
      split at h
      · cases h
      · cases h
        obtain ⟨rfl, hbrace⟩ := eq_append_of_columnBody hbody
        obtain ⟨inner, hinner, hinnerBrace, rfl⟩ := hs
        rcases List.infix_cons_iff.1 hinner with ⟨behind, hfront⟩ | hlater
        · -- both end at the first closing brace
          have hsame : inner ++ '\x7d' :: behind = body ++ '\x7d' :: rest := by simpa using hfront
          have hread := columnBody_append hinnerBrace behind
          rw [hsame, hbody] at hread
          cases hread
          exact Or.inl (Or.inl rfl)
        · rcases (Spells.of_cons ⟨inner, hlater, hinnerBrace, rfl⟩ (by decide)).of_append with
            hdollar | hrest
          · refine Or.inl (Or.inr ?_)
            rw [Identifier.normalize, String.toList_ofList, String.toList_ofList,
              Identifier.dollar_mem_normalChars]
            exact Text.mem_trimmed hdollar (by decide)
          · exact Or.inr hrest
    · cases h
  · cases h

/-- A plain name at the start of a text is held by the first token, or written behind it. -/
theorem holds_of_scanLexeme {c : Char} {cs name : List Char} {lexeme : Lexeme (c :: cs)}
    (h : scanLexeme c cs = .ok lexeme) (hplain : isPlainName name) (hs : Spells (c :: cs) name) :
    lexeme.token.Holds name ∨ Spells lexeme.rest name := by
  unfold scanLexeme at h
  split at h
  · next hdigit =>
    have hrest := (hs.of_cons (by rintro rfl; exact absurd hdigit (by decide))).afterWord
    unfold scanNumber at h
    simp only at h
    split at h
    · cases h
      exact Or.inr hrest
    · cases h
  · split at h
    · next hquote =>
      unfold scanText at h
      split at h
      · next body rest hbody =>
        cases h
        rw [Token.Holds, String.toList_ofList]
        exact (hs.of_cons (by rw [hquote]; decide)).of_literalBody hbody hplain
      · cases h
    · split at h
      · next hdollar =>
        subst hdollar
        exact holds_of_scanColumn h hs
      · next hne =>
        split at h
        · cases h
          exact Or.inr (hs.of_cons hne).afterWord
        · split at h
          · cases h
            exact Or.inr (hs.of_cons hne)
          · cases h

/-- A plain name that a text writes in a placeholder is held by one of its tokens. -/
theorem exists_holds_of_scan {cs name : List Char} {tokens : List Token}
    (h : Token.scan cs = .ok tokens) (hplain : isPlainName name) (hs : Spells cs name) :
    ∃ t ∈ tokens, t.Holds name := by
  fun_induction Token.scan cs generalizing tokens with
  | case1 => obtain ⟨_, hbody, -⟩ := hs; cases List.infix_nil.1 hbody
  | case2 c cs hblank ih =>
    exact ih h (hs.of_cons (by rintro rfl; exact absurd hblank (by decide)))
  | case3 => cases h
  | case4 => cases h
  | case5 c cs hblank lexeme hlexeme _ rest hrest ih =>
    cases h
    rcases holds_of_scanLexeme hlexeme hplain hs with hhead | hbehind
    · exact ⟨lexeme.token, List.mem_cons_self, hhead⟩
    · obtain ⟨t, ht, hholds⟩ := ih hrest hbehind
      exact ⟨t, List.mem_cons_of_mem _ ht, hholds⟩

/-- No character that is a token by itself is a literal text. -/
theorem ofSign?_ne_text {c : Char} {s : String} : Token.ofSign? c ≠ some (.text s) := by
  unfold Token.ofSign?
  split <;> simp

/-- A literal text at the start of a text was read there. -/
theorem literalBody_of_scanLexeme {c : Char} {cs : List Char} {lexeme : Lexeme (c :: cs)}
    {s : String} (h : scanLexeme c cs = .ok lexeme) (hs : lexeme.token = .text s) :
    literalBody cs = some (s.toList, lexeme.rest) := by
  unfold scanLexeme at h
  split at h
  · unfold scanNumber at h
    simp only at h
    split at h <;> cases h
    cases hs
  · split at h
    · unfold scanText at h
      split at h
      · next hbody =>
        cases h
        cases hs
        exact hbody.trans (by rw [String.toList_ofList])
      · cases h
    · split at h
      · obtain ⟨-, name, -, -, htoken⟩ := spells_of_scanColumn h
        rw [htoken] at hs
        cases hs
      · split at h
        · cases h; cases hs
        · split at h
          · next hsign =>
            cases h
            cases hs
            exact absurd hsign ofSign?_ne_text
          · cases h

/-- A plain name that a literal text writes in a placeholder is written in the text it is part
of. -/
theorem spells_of_mem_text {cs name : List Char} {tokens : List Token} {s : String}
    (h : Token.scan cs = .ok tokens) (hmem : .text s ∈ tokens) (hplain : isPlainName name)
    (hs : Spells s.toList name) : Spells cs name := by
  fun_induction Token.scan cs generalizing tokens with
  | case1 => cases h; cases hmem
  | case2 c cs hblank ih => exact (ih h hmem).of_suffix (List.suffix_cons c cs)
  | case3 => cases h
  | case4 => cases h
  | case5 c cs hblank lexeme hlexeme _ rest hrest ih =>
    cases h
    rcases List.mem_cons.1 hmem with hhead | htail
    · exact (hs.of_body (literalBody_of_scanLexeme hlexeme hhead.symm) hplain).of_suffix
        (List.suffix_cons c cs)
    · exact (ih hrest htail).of_suffix
        ((suffix_of_scanLexeme hlexeme).trans (List.suffix_cons c cs))

/-! ### Operands -/

mutual

/-- The operands in a tree, in the order of the text: its literals and columns. -/
def Tree.leaves : Tree → List Tree
  | .literal s => [.literal s]
  | .column name => [.column name]
  | .negate t => t.leaves
  | .binary _ left right => left.leaves ++ right.leaves
  | .call _ args => leavesAll args

/-- The operands in several trees. -/
def leavesAll : List Tree → List Tree
  | [] => []
  | t :: ts => t.leaves ++ leavesAll ts

end

/-- The operand that a token is. -/
def Token.leaf? : Token → Option Tree
  | .int i => some (.literal (.int i))
  | .text s => some (.literal (.text s))
  | .column name => some (.column name)
  | _ => none

theorem leavesAll_eq (ts : List Tree) : leavesAll ts = ts.flatMap Tree.leaves := by
  induction ts with
  | nil => rw [leavesAll]; rfl
  | cons t ts ih => rw [leavesAll, ih, List.flatMap_cons]

theorem leaves_grouped (t : Tree) (more : List RightOperand) :
    (grouped t more).leaves = t.leaves ++ more.flatMap fun o => o.tree.leaves := by
  induction more generalizing t with
  | nil => simp [grouped]
  | cons o more ih =>
    have h := ih (.binary o.op t o.tree)
    rw [Tree.leaves] at h
    simpa [grouped] using h

theorem filterMap_leaf?_spelling (more : List RightOperand) :
    (spelling more).filterMap Token.leaf? =
      more.flatMap fun o => o.tokens.filterMap Token.leaf? := by
  rw [spelling, List.filterMap_flatMap]
  refine List.flatMap_congr fun o _ => ?_
  cases hop : o.op <;> rfl

theorem filterMap_leaf?_intercalate (args : List (List Token)) :
    ([Token.comma].intercalate args).filterMap Token.leaf? =
      args.flatMap fun ts => ts.filterMap Token.leaf? := by
  induction args with
  | nil => rfl
  | cons a args ih =>
    cases args with
    | nil => simp
    | cons b args => simpa [List.filterMap_cons, Token.leaf?] using ih

/-- The operands of a phrase are those of its tokens. -/
theorem Derives.leaves_eq {phrase : Phrase} {ts : List Token} {t : Tree} (h : Derives phrase ts t) :
    t.leaves = ts.filterMap Token.leaf? := by
  induction h with
  | sum _ _ _ ihFirst ihOperands | product _ _ _ ihFirst ihOperands =>
    rw [leaves_grouped, List.filterMap_append, filterMap_leaf?_spelling, ihFirst,
      List.flatMap_congr ihOperands]
  | negate _ ih => rw [Tree.leaves, ih]; rfl
  | bare _ ih => exact ih
  | int | text | column => rw [Tree.leaves]; rfl
  | group _ ih => simp [ih, List.filterMap_cons, Token.leaf?]
  | call _ _ _ ih =>
    rw [Tree.leaves, leavesAll_eq, List.flatMap_map, List.flatMap_congr ih]
    simp [List.filterMap_cons, Token.leaf?, filterMap_leaf?_intercalate, List.flatMap_map]

mutual

/-- The columns of a tree are the columns among its operands. -/
theorem Tree.column_mem_leaves_iff {n : String} :
    (t : Tree) → (.column n ∈ t.leaves ↔ n ∈ t.columns)
  | .literal s => by simp [Tree.leaves, Tree.columns]
  | .column name => by simp [Tree.leaves, Tree.columns]
  | .negate t => by rw [Tree.leaves, Tree.columns, t.column_mem_leaves_iff]
  | .binary op left right => by
    rw [Tree.leaves, Tree.columns, List.mem_append, List.mem_append, left.column_mem_leaves_iff,
      right.column_mem_leaves_iff]
  | .call f args => by rw [Tree.leaves, Tree.columns, column_mem_leavesAll_iff args]

theorem column_mem_leavesAll_iff {n : String} :
    (ts : List Tree) → (.column n ∈ leavesAll ts ↔ n ∈ columnsAll ts)
  | [] => by simp [leavesAll, columnsAll]
  | t :: ts => by
    rw [leavesAll, columnsAll_cons, List.mem_append, List.mem_append, t.column_mem_leaves_iff,
      column_mem_leavesAll_iff ts]

end

/-- The operands of a parsed expression are those of the tokens of its text. -/
theorem mem_leaves_iff_of_parse {source : String} {e : Expression}
    (h : Expression.parse source = .ok e) : ∃ tokens, Token.scan source.toList = .ok tokens ∧
      ∀ leaf, leaf ∈ e.root.leaves ↔ ∃ t ∈ tokens, t.leaf? = some leaf := by
  obtain ⟨-, tokens, hscan, hparse⟩ := parse_source_eq_ok_iff.1 h
  refine ⟨tokens, hscan, fun leaf => ?_⟩
  rw [(derives_of_parse hparse).leaves_eq, List.mem_filterMap]

theorem Token.leaf?_eq_text_iff {t : Token} {s : String} :
    t.leaf? = some (.literal (.text s)) ↔ t = .text s := by
  cases t <;> simp [Token.leaf?]

/-- What an expression writes plainly are columns of it and what its literal texts write plainly, if
no column has a dollar sign in its name. -/
theorem writesPlainly_iff_of_parse {source : String} {e : Expression}
    (h : Expression.parse source = .ok e) (hdollar : ∀ n ∈ e.root.columns, '$' ∉ n.toList)
    {n : String} :
    WritesPlainly source.toList n ↔ n ∈ e.root.columns ∧ WritesPlainly source.toList n ∨
      ∃ text, .literal (.text text) ∈ e.root.leaves ∧ WritesPlainly text.toList n := by
  obtain ⟨tokens, hscan, hleaves⟩ := mem_leaves_iff_of_parse h
  constructor
  · rintro ⟨name, hspells, hplain, rfl⟩
    obtain ⟨t, ht, hholds⟩ := exists_holds_of_scan hscan hplain hspells
    cases t with
    | column n =>
      have hn : n ∈ e.root.columns :=
        (Tree.column_mem_leaves_iff _).1 ((hleaves _).2 ⟨_, ht, rfl⟩)
      rcases hholds with rfl | hsign
      · exact Or.inl ⟨hn, name, hspells, hplain, rfl⟩
      · exact absurd hsign (hdollar n hn)
    | text s => exact Or.inr ⟨s, (hleaves _).2 ⟨_, ht, rfl⟩, name, hholds, hplain, rfl⟩
    | _ => cases hholds
  · rintro (⟨-, hwrites⟩ | ⟨text, htext, name, hspells, hplain, hname⟩)
    · exact hwrites
    · obtain ⟨t, ht, hleaf⟩ := (hleaves _).1 htext
      rw [Token.leaf?_eq_text_iff.1 hleaf] at ht
      exact ⟨name, spells_of_mem_text hscan ht hplain hspells, hplain, hname⟩

end Expression

/-- Settings declare a name if it is the compared form of one of their columns. -/
def RuleSettings.Declares (s : RuleSettings) (name : String) : Prop :=
  ∃ c ∈ s.columns, Identifier.normalize c.name = name

namespace Rule

open Expression

/-- The search finds nothing undeclared if each column that is written plainly is declared. -/
theorem undeclared?_eq_none_iff {s : RuleSettings} {source : String} :
    undeclared? (s.columns.map fun c => { c with name := Identifier.normalize c.name }) source =
      none ↔ ∀ n, WritesPlainly source.toList n → s.Declares n := by
  unfold undeclared?
  rw [List.find?_eq_none]
  constructor
  · intro h n hn
    obtain ⟨name, hname, rfl⟩ := writesPlainly_iff.1 hn
    have hfound := h _ (List.mem_map_of_mem hname)
    simpa [RuleSettings.Declares, Identifier.normalize] using hfound
  · intro h n hn
    obtain ⟨name, hname, rfl⟩ := List.mem_map.1 hn
    obtain ⟨c, hc, hcn⟩ := h _ (writesPlainly_iff.2 ⟨name, hname, rfl⟩)
    rw [Identifier.normalize, Identifier.normalize, String.toList_ofList] at hcn
    simp only [Bool.not_eq_true, Bool.not_eq_false', List.any_map, List.any_eq_true]
    exact ⟨c, hc, by simpa [Identifier.normalize] using hcn⟩

/-- Where settings give an expression alone, the key is found by it if it can be parsed and the
search finds nothing undeclared. -/
theorem buildKind_expression {registry : Registry} {columns : List RuleColumn} {s : RuleSettings}
    {source : String} (halgorithm : s.algorithm = none) (hexpression : s.expression = some source)
    {kind : RuleKind} :
    buildKind registry columns s = .ok kind ↔ undeclared? columns source = none ∧
      ∃ e, Expression.parse source = .ok e ∧ kind = .expression e := by
  unfold buildKind
  rw [halgorithm, hexpression]
  simp only
  split
  · next hname => simp [hname]
  · next hnone =>
    split
    · next e he => simp [hnone, he, eq_comm]
    · next fault hfault => simp [hfault]

/-- A rule with columns and an expression is accepted if its text is an expression, and each column
that is written plainly in the text is declared. -/
theorem exists_build_iff {registry : Registry} {s : RuleSettings} {source : String}
    (hcolumns : s.columns ≠ []) (halgorithm : s.algorithm = none)
    (hexpression : s.expression = some source) :
    (∃ r, build registry s = .ok r) ↔ (∃ e, Expression.parse source = .ok e) ∧
      ∀ n, WritesPlainly source.toList n → s.Declares n := by
  rw [← undeclared?_eq_none_iff]
  constructor
  · rintro ⟨r, hr⟩
    obtain ⟨-, hc, hk⟩ := build_eq_ok_iff.1 hr
    obtain ⟨hnone, e, he, -⟩ := (buildKind_expression halgorithm hexpression).1 hk
    exact ⟨⟨e, he⟩, hc ▸ hnone⟩
  · rintro ⟨⟨e, he⟩, hnone⟩
    exact ⟨⟨_, .expression e⟩, build_eq_ok_iff.2 ⟨hcolumns, rfl,
      (buildKind_expression halgorithm hexpression).2 ⟨hnone, e, he, rfl⟩⟩⟩

/-- Whether a rule with an expression is accepted. The search of the text decides: each column that
is written plainly must be declared. For an expression without dollar signs in the names of its
columns these are the columns that are written plainly and what literal texts write plainly; where
every column is written plainly, and literal texts write nothing else, a rule is accepted just if
all columns of its expression are declared. -/
theorem exists_build_iff_declares {registry : Registry} {s : RuleSettings} {source : String}
    (hcolumns : s.columns ≠ []) (halgorithm : s.algorithm = none)
    (hexpression : s.expression = some source) :
    ((∃ r, build registry s = .ok r) ↔ (∃ e, Expression.parse source = .ok e) ∧
      ∀ n, WritesPlainly source.toList n → s.Declares n) ∧
    ∀ e, Expression.parse source = .ok e →
      ((∀ n ∈ e.root.columns, '$' ∉ n.toList) →
        ((∃ r, build registry s = .ok r) ↔
          (∀ n ∈ e.root.columns, WritesPlainly source.toList n → s.Declares n) ∧
          ∀ text, .literal (.text text) ∈ e.root.leaves →
            ∀ n, WritesPlainly text.toList n → s.Declares n)) ∧
      ((∀ n ∈ e.root.columns, WritesPlainly source.toList n) →
        (∀ text, .literal (.text text) ∈ e.root.leaves →
          ∀ n, WritesPlainly text.toList n → n ∈ e.root.columns) →
        ((∃ r, build registry s = .ok r) ↔ ∀ n ∈ e.root.columns, s.Declares n)) := by
  have hbuild : (∃ r, build registry s = .ok r) ↔ _ :=
    exists_build_iff hcolumns halgorithm hexpression
  refine ⟨hbuild, fun e he => ?_⟩
  rw [and_iff_right ⟨e, he⟩] at hbuild
  rw [hbuild]
  constructor
  · intro hdollar
    have hwrites := fun n => writesPlainly_iff_of_parse he hdollar (n := n)
    constructor
    · intro h
      refine ⟨fun n _ hn => h n hn, fun text htext n hn => h n ?_⟩
      exact (hwrites n).2 (Or.inr ⟨text, htext, hn⟩)
    · rintro ⟨hcolumn, htext⟩ n hn
      rcases (hwrites n).1 hn with ⟨hmem, -⟩ | ⟨text, hmem, htn⟩
      · exact hcolumn n hmem hn
      · exact htext text hmem n htn
  · intro hplain htexts
    have hwrites := fun n =>
      writesPlainly_iff_of_parse he (fun m hm => (hplain m hm).dollar_not_mem) (n := n)
    constructor
    · exact fun h n hn => h n (hplain n hn)
    · intro h n hn
      rcases (hwrites n).1 hn with ⟨hmem, -⟩ | ⟨text, hmem, htn⟩
      · exact h n hmem
      · exact h n (htexts text hmem n htn)

/-- Settings of a rule that names parts by a suffix. -/
def suffixRule : RuleSettings where
  columns := [{ name := "User_Id" }]
  expression := some "concat('_', $\x7b user_id \x7d % 4)"

/-- Settings of a rule whose literal text looks like a placeholder. -/
def literalRule : RuleSettings where
  columns := [{ name := "user_id" }]
  expression := some "concat('$\x7btenant\x7d', $\x7buser_id\x7d)"

/-- Settings of a rule whose placeholder has a name that is not plain. -/
def hyphenRule : RuleSettings where
  columns := [{ name := "user_id" }]
  expression := some "$\x7border-id\x7d % 2"

/-- The first of these rules is accepted, since its column is declared; the second is refused, since
its literal text writes a column that is not. -/
theorem exists_build_iff_declares_suffix :
    (∃ r, build Registry.builtin suffixRule = .ok r) ∧
      ¬ ∃ r, build Registry.builtin literalRule = .ok r := by
  constructor
  · have hparse : Expression.parse "concat('_', $\x7b user_id \x7d % 4)" =
        .ok ⟨"concat('_', $\x7b user_id \x7d % 4)", .call .concat [.literal (.text "_"),
          .binary .rem (.column "user_id") (.literal (.int 4))]⟩ := by cbv
    refine (((exists_build_iff_declares (by decide) rfl rfl).2 _ hparse).2 ?_ ?_).2 ?_
    · intro n hn
      obtain rfl : n = "user_id" := by simpa [Tree.columns, columnsAll] using hn
      exact writesPlainly_iff.2 ⟨"user_id".toList, by decide +kernel, by decide +kernel⟩
    · intro text htext n hn
      obtain rfl : text = "_" := by simpa [Tree.leaves, leavesAll] using htext
      obtain ⟨name, hname, -⟩ := writesPlainly_iff.1 hn
      cases hname
    · intro n hn
      obtain rfl : n = "user_id" := by simpa [Tree.columns, columnsAll] using hn
      exact ⟨{ name := "User_Id" }, List.mem_singleton_self _, by decide +kernel⟩
  · have hparse : Expression.parse "concat('$\x7btenant\x7d', $\x7buser_id\x7d)" =
        .ok ⟨"concat('$\x7btenant\x7d', $\x7buser_id\x7d)", .call .concat
          [.literal (.text "$\x7btenant\x7d"), .column "user_id"]⟩ := by cbv
    intro hbuild
    have hall := (((exists_build_iff_declares (by decide) rfl rfl).2 _ hparse).1
      (by simp [Tree.columns, columnsAll])).1 hbuild
    obtain ⟨c, hc, hname⟩ := hall.2 "$\x7btenant\x7d" (by simp [Tree.leaves, leavesAll]) "tenant"
      (writesPlainly_iff.2 ⟨"tenant".toList, by decide +kernel, by decide +kernel⟩)
    obtain rfl : c = { name := "user_id" } := List.mem_singleton.1 hc
    exact absurd hname (by decide +kernel)

/-- Being accepted and having all columns declared do not go together, either way: the search misses
a placeholder with a name that is not plain, and it finds one in a literal text. -/
theorem not_exists_build_iff_declares :
    (¬ ∀ (s : RuleSettings) (source : String) (e : Expression), s.columns ≠ [] →
      s.algorithm = none → s.expression = some source → Expression.parse source = .ok e →
        (∃ r, build Registry.builtin s = .ok r) → ∀ n ∈ e.root.columns, s.Declares n) ∧
    ¬ ∀ (s : RuleSettings) (source : String) (e : Expression), s.columns ≠ [] →
      s.algorithm = none → s.expression = some source → Expression.parse source = .ok e →
        (∀ n ∈ e.root.columns, s.Declares n) → ∃ r, build Registry.builtin s = .ok r := by
  constructor
  · intro h
    have hparse : Expression.parse "$\x7border-id\x7d % 2" = .ok ⟨"$\x7border-id\x7d % 2",
        .binary .rem (.column "order-id") (.literal (.int 2))⟩ := by cbv
    obtain ⟨c, hc, hname⟩ := h hyphenRule _ _ (by decide) rfl rfl hparse
      ⟨⟨[{ name := "user_id" }], .expression ⟨"$\x7border-id\x7d % 2",
        .binary .rem (.column "order-id") (.literal (.int 2))⟩⟩, by cbv⟩
      "order-id" (by simp [Tree.columns])
    obtain rfl : c = { name := "user_id" } := List.mem_singleton.1 hc
    exact absurd hname (by decide +kernel)
  · intro h
    have hparse : Expression.parse "concat('$\x7btenant\x7d', $\x7buser_id\x7d)" =
        .ok ⟨"concat('$\x7btenant\x7d', $\x7buser_id\x7d)", .call .concat
          [.literal (.text "$\x7btenant\x7d"), .column "user_id"]⟩ := by cbv
    have hrefused : build Registry.builtin literalRule = .error (.undeclaredColumn "tenant") := by
      cbv
    obtain ⟨r, hr⟩ := h literalRule _ _ (by decide) rfl rfl hparse fun n hn => by
      obtain rfl : n = "user_id" := by simpa [Tree.columns, columnsAll] using hn
      exact ⟨{ name := "user_id" }, List.mem_singleton_self _, by decide +kernel⟩
    rw [hrefused] at hr
    cases hr

end Rule

end ShardRouting
