import ShardRouting.Proofs.Columns
import ShardRouting.Proofs.Placeholders

/-!
# Columns of parsed expressions

The parser makes up no columns: those of the tree that it builds are among the tokens that it was
given, and so they are written in the text.

* `FoundIn names rest ts`: columns that were read off tokens, and what was left of these.
* `Tree.columns_of_parse`: the columns of a tree are among the tokens it was parsed from.
* `spells_of_parse`: the columns of an expression are written in its text.
-/

namespace ShardRouting

namespace Expression

/-! ### Columns among tokens -/

/-- Columns were read off tokens, of which some were left: what was left is among them, and so is
each of the columns. -/
def FoundIn (names : List String) (rest ts : List Token) : Prop :=
  rest ⊆ ts ∧ ∀ n ∈ names, .column n ∈ ts

/-- Columns that are read one behind the other are read together. -/
theorem FoundIn.append {names more : List String} {rest mid ts : List Token}
    (h : FoundIn names mid ts) (h' : FoundIn more rest mid) : FoundIn (names ++ more) rest ts := by
  refine ⟨fun t ht => h.1 (h'.1 ht), fun n hn => ?_⟩
  rcases List.mem_append.1 hn with hn | hn
  · exact h.2 n hn
  · exact h.1 (h'.2 n hn)

/-- Tokens may be passed over in front. -/
theorem FoundIn.after {names : List String} {rest mid ts : List Token} (hmid : mid ⊆ ts)
    (h : FoundIn names rest mid) : FoundIn names rest ts :=
  ⟨fun _ ht => hmid (h.1 ht), fun n hn => hmid (h.2 n hn)⟩

/-- Tokens may be passed over behind. -/
theorem FoundIn.before {names : List String} {rest mid ts : List Token}
    (h : FoundIn names mid ts) (hrest : rest ⊆ mid) : FoundIn names rest ts :=
  ⟨fun _ ht => h.1 (hrest ht), h.2⟩

theorem subset_of_expect {t : Token} {ts : List Token} {p : Parsed Unit ts}
    (h : expect t ts = .ok p) : p.rest ⊆ ts := by
  unfold expect at h
  split at h
  · cases h
  · split at h
    · cases h; exact List.subset_cons_self _ _
    · cases h

theorem subset_of_sumOperator? {ts rest : List Token} {op : Operator}
    (h : sumOperator? ts = some (op, rest)) : rest ⊆ ts := by
  unfold sumOperator? at h
  split at h <;> cases h <;> exact List.subset_cons_self _ _

theorem subset_of_productOperator? {ts rest : List Token} {op : Operator}
    (h : productOperator? ts = some (op, rest)) : rest ⊆ ts := by
  unfold productOperator? at h
  split at h <;> cases h <;> exact List.subset_cons_self _ _

/-! ### One statement for each function of the parser -/

-- The tails carry the columns of the tree that they go on from, whatever tokens that tree was
-- read off.
mutual

theorem foundIn_parseSum (ts : List Token) {p : Parsed Tree ts} (h : parseSum ts = .ok p) :
    FoundIn p.value.columns p.rest ts := by
  rw [parseSum] at h
  split at h
  · cases h
  · next first hfirst =>
    have := first.shorter
    split at h
    · cases h
    · next more hmore =>
      cases h
      exact foundIn_parseSumTail first.value first.rest hmore (foundIn_parseProduct ts hfirst)
  termination_by (ts.length, 3)

theorem foundIn_parseSumTail (left : Tree) (ts : List Token) {p : Continued Tree ts}
    (h : parseSumTail left ts = .ok p) {ts₀ : List Token} (hleft : FoundIn left.columns ts ts₀) :
    FoundIn p.value.columns p.rest ts₀ := by
  rw [parseSumTail] at h
  split at h
  · cases h; exact hleft
  · next op rest hop =>
    have := length_of_sumOperator? hop
    split at h
    · cases h
    · next right hright =>
      have := right.shorter
      split at h
      · cases h
      · next more hmore =>
        cases h
        have hr := (foundIn_parseProduct rest hright).after (subset_of_sumOperator? hop)
        refine foundIn_parseSumTail (.binary op left right.value) right.rest hmore ?_
        rw [Tree.columns]
        exact hleft.append hr
  termination_by (ts.length, 0)

theorem foundIn_parseProduct (ts : List Token) {p : Parsed Tree ts}
    (h : parseProduct ts = .ok p) : FoundIn p.value.columns p.rest ts := by
  rw [parseProduct] at h
  split at h
  · cases h
  · next first hfirst =>
    have := first.shorter
    split at h
    · cases h
    · next more hmore =>
      cases h
      exact foundIn_parseProductTail first.value first.rest hmore
        (foundIn_parseNegation ts hfirst)
  termination_by (ts.length, 2)

theorem foundIn_parseProductTail (left : Tree) (ts : List Token) {p : Continued Tree ts}
    (h : parseProductTail left ts = .ok p) {ts₀ : List Token}
    (hleft : FoundIn left.columns ts ts₀) : FoundIn p.value.columns p.rest ts₀ := by
  rw [parseProductTail] at h
  split at h
  · cases h; exact hleft
  · next op rest hop =>
    have := length_of_productOperator? hop
    split at h
    · cases h
    · next right hright =>
      have := right.shorter
      split at h
      · cases h
      · next more hmore =>
        cases h
        have hr := (foundIn_parseNegation rest hright).after (subset_of_productOperator? hop)
        refine foundIn_parseProductTail (.binary op left right.value) right.rest hmore ?_
        rw [Tree.columns]
        exact hleft.append hr
  termination_by (ts.length, 0)

theorem foundIn_parseNegation (ts : List Token) {p : Parsed Tree ts}
    (h : parseNegation ts = .ok p) : FoundIn p.value.columns p.rest ts := by
  rw [parseNegation.eq_def] at h
  split at h
  · next ts' =>
    split at h
    · cases h
    · next inner hinner =>
      cases h
      rw [Tree.columns]
      exact (foundIn_parseNegation ts' hinner).after (List.subset_cons_self _ _)
  · exact foundIn_parsePrimary ts h
  termination_by (ts.length, 1)

theorem foundIn_parsePrimary (ts : List Token) {p : Parsed Tree ts}
    (h : parsePrimary ts = .ok p) : FoundIn p.value.columns p.rest ts := by
  rw [parsePrimary.eq_def] at h
  split at h
  · cases h
  next t ts' =>
  cases t with
  | int i | text s | column name =>
    cases h
    exact ⟨List.subset_cons_self _ _, by simp [Tree.columns]⟩
  | lparen =>
    simp only at h
    split at h
    · cases h
    · next inner hinner =>
      split at h
      · cases h
      · next close hclose =>
        cases h
        exact ((foundIn_parseSum ts' hinner).before (subset_of_expect hclose)).after
          (List.subset_cons_self _ _)
  | word name =>
    simp only at h
    split at h
    · cases h
    · next f hf =>
      split at h
      · cases h
      · next opening hopening =>
        have := Nat.lt_succ_of_lt opening.shorter
        split at h
        · cases h
        · next args hargs =>
          split at h
          · cases h
          · next close hclose =>
            split at h
            · cases h
              have hfound := (foundIn_parseArguments opening.rest hargs).before
                (subset_of_expect hclose)
              rw [Tree.columns]
              exact (hfound.after (subset_of_expect hopening)).after (List.subset_cons_self _ _)
            · cases h
  | plus | minus | star | slash | percent | rparen | comma => cases h
  termination_by (ts.length, 0)

theorem foundIn_parseArguments (ts : List Token) {p : Continued (List Tree) ts}
    (h : parseArguments ts = .ok p) : FoundIn (columnsAll p.value) p.rest ts := by
  rw [parseArguments.eq_def] at h
  split at h
  · cases h
    exact ⟨List.Subset.refl _, by simp [columnsAll]⟩
  · split at h
    · cases h
    · next args hargs => cases h; exact foundIn_parseArgumentList ts hargs
  termination_by (ts.length, 5)

theorem foundIn_parseArgumentList (ts : List Token) {p : Parsed (List Tree) ts}
    (h : parseArgumentList ts = .ok p) : FoundIn (columnsAll p.value) p.rest ts := by
  rw [parseArgumentList] at h
  split at h
  · cases h
  · next first hfirst =>
    have hshort := first.shorter
    have hfound := foundIn_parseSum ts hfirst
    split at h
    · next rest hrest =>
      split at h
      · cases h
      · next more hmore =>
        cases h
        have : rest.length < ts.length := by
          rw [hrest, List.length_cons] at hshort
          omega
        have hmore' := (foundIn_parseArgumentList rest hmore).after
          (hrest ▸ List.subset_cons_self Token.comma rest)
        rw [columnsAll]
        exact hfound.append hmore'
    · cases h
      rw [columnsAll, columnsAll, List.append_nil]
      exact hfound
  termination_by (ts.length, 4)

end

/-- The columns of a tree are among the tokens that it was parsed from. -/
theorem Tree.columns_of_parse {ts : List Token} {t : Tree} (h : Tree.parse ts = .ok t) :
    ∀ n ∈ t.columns, .column n ∈ ts := by
  unfold Tree.parse at h
  split at h
  · cases h
  · next parsed hparsed =>
    split at h
    · cases h; exact (foundIn_parseSum ts hparsed).2
    · cases h

/-- The columns of an expression are written in its text. -/
theorem spells_of_parse {source : String} {e : Expression} (h : Expression.parse source = .ok e) :
    ∀ n ∈ e.root.columns, ∃ name, Spells source.toList name ∧ name ≠ [] ∧
      Identifier.normalize (String.ofList name) = n := by
  intro n hn
  unfold parse at h
  split at h
  · cases h
  · cases h
  · next tokens _ hscan =>
    split at h
    · cases h
    · next root hroot =>
      cases h
      exact spells_of_mem_scan hscan (Tree.columns_of_parse hroot n hn)

end Expression

end ShardRouting
