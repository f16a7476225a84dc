import Mathlib.Logic.ExistsUnique
import ShardRouting.Expression.Eval

/-!
# The grammar of expressions

The grammar of the expression language, written down by itself: a sum is one product or more with
signs between them, a product is one negation or more, a negation puts minus signs in front of a
primary, and a primary is a literal, a placeholder, a sum in parentheses, or a function of sums.
With each rule goes the tree that it stands for, in which operators of one rank group to the left.
The parser accepts the token lists of this grammar and no others, and builds the one tree of each.

* `Derives`: the grammar, with the trees.
* `derives_of_parseSum` and its companions: what the parser reads is derivable.
* `Derives.reads`: what is derivable is read, if what follows cannot go on with it.
* `parse_eq_ok_iff_derives`: both together, for a whole token list and for a whole text.
-/

namespace ShardRouting.Expression

/-! ### Derivations -/

/-- The name of a function, in small letters. -/
def Function.name : Function → String
  | .hash => "hash"
  | .crc32 => "crc32"
  | .abs => "abs"
  | .substr => "substr"
  | .concat => "concat"
  | .coalesce => "coalesce"

/-- A word names a function if it is the name of it in letters of any case. -/
def Function.IsNamed (f : Function) (word : String) : Prop :=
  word.toList.map Char.toLower = f.name.toList

/-- The sign of an operator. -/
def Operator.sign : Operator → Token
  | .add => .plus
  | .sub => .minus
  | .mul => .star
  | .div => .slash
  | .rem => .percent

/-- Whether an operator stands between the products of a sum, and not inside a product. -/
def Operator.isAdditive : Operator → Bool
  | .add | .sub => true
  | .mul | .div | .rem => false

/-- What a token list can be derived as. -/
inductive Phrase where
  /-- Products with `+` and `-` between them. -/
  | sum
  /-- Negations with `*`, `/` and `%` between them. -/
  | product
  /-- A primary with minus signs in front. -/
  | negation
  /-- A literal, a placeholder, a sum in parentheses, or a call. -/
  | primary
  deriving DecidableEq

/-- An operator with what stands to the right of it. -/
structure RightOperand where
  /-- The operator. -/
  op : Operator
  /-- The tokens of its right operand. -/
  tokens : List Token
  /-- The tree of its right operand. -/
  tree : Tree

/-- The tokens of operators with their right operands. -/
def spelling (ops : List RightOperand) : List Token :=
  ops.flatMap fun o => o.op.sign :: o.tokens

/-- The tree of an operand that operators follow: each applies to all that stands to its left. -/
def grouped (first : Tree) (ops : List RightOperand) : Tree :=
  ops.foldl (fun left o => .binary o.op left o.tree) first

/-- The grammar: which tokens are derived as which phrase, and the tree of the derivation. -/
inductive Derives : Phrase → List Token → Tree → Prop where
  /-- A sum is a product, and any number of products with `+` or `-` in front of each. -/
  | sum {ts : List Token} {t : Tree} {more : List RightOperand} (first : Derives .product ts t)
      (signs : ∀ o ∈ more, o.op.isAdditive = true)
      (operands : ∀ o ∈ more, Derives .product o.tokens o.tree) :
      Derives .sum (ts ++ spelling more) (grouped t more)
  /-- A product is a negation, and any number of negations with `*`, `/` or `%` in front of each. -/
  | product {ts : List Token} {t : Tree} {more : List RightOperand} (first : Derives .negation ts t)
      (signs : ∀ o ∈ more, o.op.isAdditive = false)
      (operands : ∀ o ∈ more, Derives .negation o.tokens o.tree) :
      Derives .product (ts ++ spelling more) (grouped t more)
  /-- A negation is one with a minus sign in front. -/
  | negate {ts : List Token} {t : Tree} (inner : Derives .negation ts t) :
      Derives .negation (.minus :: ts) (.negate t)
  /-- A negation is a primary. -/
  | bare {ts : List Token} {t : Tree} (inner : Derives .primary ts t) : Derives .negation ts t
  /-- An integer is a primary. -/
  | int (i : Int64) : Derives .primary [.int i] (.literal (.int i))
  /-- A literal text is a primary. -/
  | text (s : String) : Derives .primary [.text s] (.literal (.text s))
  /-- A placeholder is a primary. -/
  | column (name : String) : Derives .primary [.column name] (.column name)
  /-- A sum in parentheses is a primary, with the tree of the sum. -/
  | group {ts : List Token} {t : Tree} (inner : Derives .sum ts t) :
      Derives .primary (.lparen :: (ts ++ [.rparen])) t
  /-- A function with sums in parentheses, and commas between them, is a primary. -/
  | call {word : String} {f : Function} {args : List (List Token × Tree)} (named : f.IsNamed word)
      (admitted : f.admits args.length = true)
      (sums : ∀ a ∈ args, Derives .sum a.1 a.2) :
      Derives .primary
        (.word word :: .lparen :: ([Token.comma].intercalate (args.map Prod.fst) ++ [.rparen]))
        (.call f (args.map Prod.snd))

/-! ### Names and signs -/

theorem Function.ofName?_eq_some_iff {word : String} {f : Function} :
    Function.ofName? word = some f ↔ f.IsNamed word := by
  unfold Function.ofName? Function.IsNamed
  constructor
  · intro h
    split at h <;> cases h <;> simp_all [Function.name]
  · intro h
    rw [h]
    cases f <;> rfl

theorem sumOperator?_eq_some_iff {ts rest : List Token} {op : Operator} :
    sumOperator? ts = some (op, rest) ↔ ts = op.sign :: rest ∧ op.isAdditive = true := by
  constructor
  · intro h
    unfold sumOperator? at h
    split at h <;> cases h <;> exact ⟨rfl, rfl⟩
  · rintro ⟨rfl, hadditive⟩
    cases op <;> first | rfl | cases hadditive

theorem productOperator?_eq_some_iff {ts rest : List Token} {op : Operator} :
    productOperator? ts = some (op, rest) ↔ ts = op.sign :: rest ∧ op.isAdditive = false := by
  constructor
  · intro h
    unfold productOperator? at h
    split at h <;> cases h <;> exact ⟨rfl, rfl⟩
  · rintro ⟨rfl, hadditive⟩
    cases op <;> first | rfl | cases hadditive

theorem rest_of_expect {t : Token} {ts : List Token} {p : Parsed Unit ts}
    (h : expect t ts = .ok p) : ts = t :: p.rest := by
  unfold expect at h
  split at h
  · cases h
  · split at h
    · next heq =>
      cases h
      rw [heq]
    · cases h

/-! ### What is read is derivable -/

/-- A phrase stands in front of tokens, and has a tree. -/
def Heads (phrase : Phrase) (ts : List Token) (t : Tree) (rest : List Token) : Prop :=
  ∃ read, ts = read ++ rest ∧ Derives phrase read t

/-- Operators with phrases as right operands stand in front of tokens, and make a tree of the one to
their left. -/
def Extends (additive : Bool) (phrase : Phrase) (left : Tree) (ts : List Token) (t : Tree)
    (rest : List Token) : Prop :=
  ∃ more, ts = spelling more ++ rest ∧ t = grouped left more ∧
    (∀ o ∈ more, o.op.isAdditive = additive) ∧ ∀ o ∈ more, Derives phrase o.tokens o.tree

/-- Sums with commas between them stand in front of tokens, and have trees. -/
def HeadsAll (ts : List Token) (args : List Tree) (rest : List Token) : Prop :=
  ∃ sums : List (List Token × Tree),
    ts = [Token.comma].intercalate (sums.map Prod.fst) ++ rest ∧ args = sums.map Prod.snd ∧
      ∀ a ∈ sums, Derives .sum a.1 a.2

variable {phrase : Phrase} {ts mid rest : List Token} {t u left : Tree} {op : Operator}
  {additive : Bool} {args : List Tree}

theorem Extends.nil : Extends additive phrase left ts left ts :=
  ⟨[], rfl, rfl, nofun, nofun⟩

/-- One more operator with its operand. -/
theorem Extends.cons (hop : op.isAdditive = additive) (hright : Heads phrase ts u mid)
    (hmore : Extends additive phrase (.binary op left u) mid t rest) :
    Extends additive phrase left (op.sign :: ts) t rest := by
  obtain ⟨read, rfl, hderives⟩ := hright
  obtain ⟨more, rfl, rfl, hops, hoperands⟩ := hmore
  refine ⟨⟨op, read, u⟩ :: more, ?_, rfl, List.forall_mem_cons.2 ⟨hop, hops⟩,
    List.forall_mem_cons.2 ⟨hderives, hoperands⟩⟩
  simp [spelling]

theorem Heads.sum (hfirst : Heads .product ts u mid) (hmore : Extends true .product u mid t rest) :
    Heads .sum ts t rest := by
  obtain ⟨read, rfl, hderives⟩ := hfirst
  obtain ⟨more, rfl, rfl, hops, hoperands⟩ := hmore
  exact ⟨read ++ spelling more, (List.append_assoc ..).symm, .sum hderives hops hoperands⟩

theorem Heads.product (hfirst : Heads .negation ts u mid)
    (hmore : Extends false .negation u mid t rest) : Heads .product ts t rest := by
  obtain ⟨read, rfl, hderives⟩ := hfirst
  obtain ⟨more, rfl, rfl, hops, hoperands⟩ := hmore
  exact ⟨read ++ spelling more, (List.append_assoc ..).symm, .product hderives hops hoperands⟩

theorem Heads.negate (h : Heads .negation ts t rest) :
    Heads .negation (.minus :: ts) (.negate t) rest := by
  obtain ⟨read, rfl, hderives⟩ := h
  exact ⟨.minus :: read, rfl, .negate hderives⟩

theorem Heads.bare (h : Heads .primary ts t rest) : Heads .negation ts t rest := by
  obtain ⟨read, rfl, hderives⟩ := h
  exact ⟨read, rfl, .bare hderives⟩

theorem Heads.group (h : Heads .sum ts t (.rparen :: rest)) :
    Heads .primary (.lparen :: ts) t rest := by
  obtain ⟨read, rfl, hderives⟩ := h
  exact ⟨.lparen :: (read ++ [.rparen]), by simp, .group hderives⟩

theorem Heads.of_eq {us : List Token} (h : Heads phrase ts t rest) (hts : us = ts) :
    Heads phrase us t rest :=
  hts ▸ h

theorem HeadsAll.nil : HeadsAll ts [] ts :=
  ⟨[], rfl, rfl, nofun⟩

theorem HeadsAll.singleton (h : Heads .sum ts t rest) : HeadsAll ts [t] rest := by
  obtain ⟨read, rfl, hderives⟩ := h
  exact ⟨[(read, t)], by simp, rfl, by simpa using hderives⟩

/-- One more argument, in front of at least one. -/
theorem HeadsAll.cons (hfirst : Heads .sum ts t (.comma :: mid)) (hmore : HeadsAll mid args rest)
    (hne : args ≠ []) : HeadsAll ts (t :: args) rest := by
  obtain ⟨read, rfl, hderives⟩ := hfirst
  obtain ⟨sums, rfl, rfl, hall⟩ := hmore
  refine ⟨(read, t) :: sums, ?_, rfl, List.forall_mem_cons.2 ⟨hderives, hall⟩⟩
  cases sums with
  | nil => exact absurd rfl hne
  | cons a sums => simp

theorem Heads.call {word : String} {f : Function} (named : f.IsNamed word)
    (admitted : f.admits args.length = true) (h : HeadsAll ts args (.rparen :: rest)) :
    Heads .primary (.word word :: .lparen :: ts) (.call f args) rest := by
  obtain ⟨sums, rfl, rfl, hall⟩ := h
  rw [List.length_map] at admitted
  exact ⟨.word word :: .lparen :: ([Token.comma].intercalate (sums.map Prod.fst) ++ [.rparen]),
    by simp, .call named admitted hall⟩

-- A tail goes on from a tree that was read before, whatever tokens that tree was read off.
mutual

theorem heads_parseSum (ts : List Token) {p : Parsed Tree ts} (h : parseSum ts = .ok p) :
    Heads .sum ts p.value p.rest := by
  rw [parseSum] at h
  split at h
  · cases h
  · next first hfirst =>
    have := first.shorter
    split at h
    · cases h
    · next more hmore =>
      cases h
      exact (heads_parseProduct ts hfirst).sum (extends_parseSumTail first.value first.rest hmore)
  termination_by (ts.length, 3)

theorem extends_parseSumTail (left : Tree) (ts : List Token) {p : Continued Tree ts}
    (h : parseSumTail left ts = .ok p) : Extends true .product left ts p.value p.rest := by
  rw [parseSumTail] at h
  split at h
  · cases h
    exact .nil
  · next op rest hop =>
    obtain ⟨hts, hadditive⟩ := sumOperator?_eq_some_iff.1 hop
    have := length_of_sumOperator? hop
    split at h
    · cases h
    · next right hright =>
      have := right.shorter
      split at h
      · cases h
      · next more hmore =>
        cases h
        have hextends := Extends.cons hadditive (heads_parseProduct rest hright)
          (extends_parseSumTail (.binary op left right.value) right.rest hmore)
        exact hts ▸ hextends
  termination_by (ts.length, 0)

theorem heads_parseProduct (ts : List Token) {p : Parsed Tree ts} (h : parseProduct ts = .ok p) :
    Heads .product ts p.value p.rest := by
  rw [parseProduct] at h
  split at h
  · cases h
  · next first hfirst =>
    have := first.shorter
    split at h
    · cases h
    · next more hmore =>
      cases h
      exact (heads_parseNegation ts hfirst).product
        (extends_parseProductTail first.value first.rest hmore)
  termination_by (ts.length, 2)

theorem extends_parseProductTail (left : Tree) (ts : List Token) {p : Continued Tree ts}
    (h : parseProductTail left ts = .ok p) : Extends false .negation left ts p.value p.rest := by
  rw [parseProductTail] at h
  split at h
  · cases h
    exact .nil
  · next op rest hop =>
    obtain ⟨hts, hadditive⟩ := productOperator?_eq_some_iff.1 hop
    have := length_of_productOperator? hop
    split at h
    · cases h
    · next right hright =>
      have := right.shorter
      split at h
      · cases h
      · next more hmore =>
        cases h
        have hextends := Extends.cons hadditive (heads_parseNegation rest hright)
          (extends_parseProductTail (.binary op left right.value) right.rest hmore)
        exact hts ▸ hextends
  termination_by (ts.length, 0)

theorem heads_parseNegation (ts : List Token) {p : Parsed Tree ts}
    (h : parseNegation ts = .ok p) : Heads .negation ts p.value p.rest := by
  rw [parseNegation.eq_def] at h
  split at h
  · next ts' =>
    split at h
    · cases h
    · next inner hinner =>
      cases h
      exact (heads_parseNegation ts' hinner).negate
  · exact (heads_parsePrimary ts h).bare
  termination_by (ts.length, 1)

theorem heads_parsePrimary (ts : List Token) {p : Parsed Tree ts}
    (h : parsePrimary ts = .ok p) : Heads .primary ts p.value p.rest := by
  rw [parsePrimary.eq_def] at h
  split at h
  · cases h
  next t ts' =>
  cases t with
  | int i =>
    cases h
    exact ⟨[.int i], rfl, .int i⟩
  | text s =>
    cases h
    exact ⟨[.text s], rfl, .text s⟩
  | column name =>
    cases h
    exact ⟨[.column name], rfl, .column name⟩
  | lparen =>
    simp only at h
    split at h
    · cases h
    · next inner hinner =>
      split at h
      · cases h
      · next close hclose =>
        cases h
        have hheads := heads_parseSum ts' hinner
        rw [rest_of_expect hclose] at hheads
        exact hheads.group
  | word word =>
    simp only at h
    split at h
    · cases h
    · next f hf =>
      split at h
      · cases h
      · next opening hopening =>
        have := Nat.lt_succ_of_lt opening.shorter
        split at h
        · cases h
        · next args hargs =>
          split at h
          · cases h
          · next close hclose =>
            split at h
            · next hadmits =>
              cases h
              have hheads := headsAll_parseArguments opening.rest hargs
              rw [rest_of_expect hclose] at hheads
              exact (Heads.call (Function.ofName?_eq_some_iff.1 hf) hadmits hheads).of_eq
                (congrArg (Token.word word :: ·) (rest_of_expect hopening))
            · cases h
  | plus | minus | star | slash | percent | rparen | comma => cases h
  termination_by (ts.length, 0)

theorem headsAll_parseArguments (ts : List Token) {p : Continued (List Tree) ts}
    (h : parseArguments ts = .ok p) : HeadsAll ts p.value p.rest := by
  rw [parseArguments.eq_def] at h
  split at h
  · cases h
    exact .nil
  · split at h
    · cases h
    · next args hargs =>
      cases h
      exact (headsAll_parseArgumentList ts hargs).1
  termination_by (ts.length, 5)

theorem headsAll_parseArgumentList (ts : List Token) {p : Parsed (List Tree) ts}
    (h : parseArgumentList ts = .ok p) : HeadsAll ts p.value p.rest ∧ p.value ≠ [] := by
  rw [parseArgumentList] at h
  split at h
  · cases h
  · next first hfirst =>
    have hshort := first.shorter
    have hheads := heads_parseSum ts hfirst
    split at h
    · next rest hrest =>
      split at h
      · cases h
      · next more hmore =>
        cases h
        have : rest.length < ts.length := by
          rw [hrest, List.length_cons] at hshort
          omega
        obtain ⟨hall, hne⟩ := headsAll_parseArgumentList rest hmore
        rw [hrest] at hheads
        exact ⟨.cons hheads hall hne, List.cons_ne_nil _ _⟩
    · cases h
      exact ⟨.singleton hheads, List.cons_ne_nil _ _⟩
  termination_by (ts.length, 4)

end

/-! ### What is derivable is read -/

/-- The part of the parser that reads a phrase. -/
def Phrase.parse : Phrase → (ts : List Token) → Except ParseError (Parsed Tree ts)
  | .sum, ts => parseSum ts
  | .product, ts => parseProduct ts
  | .negation, ts => parseNegation ts
  | .primary, ts => parsePrimary ts

/-- Tokens do not go on with a phrase that ends in front of them. -/
def Phrase.EndsBefore : Phrase → List Token → Prop
  | .sum, rest => sumOperator? rest = none ∧ productOperator? rest = none
  | .product, rest => productOperator? rest = none
  | .negation, _ | .primary, _ => True

/-- A parsing step succeeds, with this value and this rest. -/
def Yields {α : Type} (outcome : Except ParseError (Parsed α ts)) (a : α) (rest : List Token) :
    Prop :=
  ∃ p, outcome = .ok p ∧ p.value = a ∧ p.rest = rest

/-- An optional parsing step succeeds, with this value and this rest. -/
def Resumes {α : Type} (outcome : Except ParseError (Continued α ts)) (a : α)
    (rest : List Token) : Prop :=
  ∃ p, outcome = .ok p ∧ p.value = a ∧ p.rest = rest

/-- Tokens are read as a phrase, whatever follows that does not go on with it. -/
def Reads (phrase : Phrase) (read : List Token) (t : Tree) : Prop :=
  ∀ rest, phrase.EndsBefore rest → Yields (phrase.parse (read ++ rest)) t rest

theorem expect_self {t : Token} : expect t (t :: ts) = .ok ⟨(), ts, Nat.lt_succ_self _⟩ := by
  simp [expect]

theorem yields_expect {t : Token} : Yields (expect t (t :: ts)) () ts :=
  ⟨_, expect_self, rfl, rfl⟩

theorem Yields.sum (hfirst : Yields (parseProduct ts) u mid)
    (hmore : Resumes (parseSumTail u mid) t rest) : Yields (parseSum ts) t rest := by
  obtain ⟨p, hp, rfl, rfl⟩ := hfirst
  obtain ⟨q, hq, rfl, rfl⟩ := hmore
  rw [parseSum, hp]
  simp only [hq]
  exact ⟨_, rfl, rfl, rfl⟩

theorem Yields.product (hfirst : Yields (parseNegation ts) u mid)
    (hmore : Resumes (parseProductTail u mid) t rest) : Yields (parseProduct ts) t rest := by
  obtain ⟨p, hp, rfl, rfl⟩ := hfirst
  obtain ⟨q, hq, rfl, rfl⟩ := hmore
  rw [parseProduct, hp]
  simp only [hq]
  exact ⟨_, rfl, rfl, rfl⟩

theorem resumes_parseSumTail_of_none (h : sumOperator? ts = none) :
    Resumes (parseSumTail left ts) left ts := by
  rw [parseSumTail]
  split
  · exact ⟨_, rfl, rfl, rfl⟩
  · simp_all

theorem Resumes.sum (hop : sumOperator? ts = some (op, mid)) {ahead : List Token}
    (hright : Yields (parseProduct mid) u ahead)
    (hmore : Resumes (parseSumTail (.binary op left u) ahead) t rest) :
    Resumes (parseSumTail left ts) t rest := by
  obtain ⟨p, hp, rfl, rfl⟩ := hright
  obtain ⟨q, hq, rfl, rfl⟩ := hmore
  rw [parseSumTail]
  split
  · simp_all
  · next op' mid' hop' =>
    cases hop.symm.trans hop'
    simp only [hp, hq]
    exact ⟨_, rfl, rfl, rfl⟩

theorem resumes_parseProductTail_of_none (h : productOperator? ts = none) :
    Resumes (parseProductTail left ts) left ts := by
  rw [parseProductTail]
  split
  · exact ⟨_, rfl, rfl, rfl⟩
  · simp_all

theorem Resumes.product (hop : productOperator? ts = some (op, mid)) {ahead : List Token}
    (hright : Yields (parseNegation mid) u ahead)
    (hmore : Resumes (parseProductTail (.binary op left u) ahead) t rest) :
    Resumes (parseProductTail left ts) t rest := by
  obtain ⟨p, hp, rfl, rfl⟩ := hright
  obtain ⟨q, hq, rfl, rfl⟩ := hmore
  rw [parseProductTail]
  split
  · simp_all
  · next op' mid' hop' =>
    cases hop.symm.trans hop'
    simp only [hp, hq]
    exact ⟨_, rfl, rfl, rfl⟩

theorem Yields.negate (h : Yields (parseNegation ts) t rest) :
    Yields (parseNegation (.minus :: ts)) (.negate t) rest := by
  obtain ⟨p, hp, rfl, rfl⟩ := h
  rw [parseNegation, hp]
  exact ⟨_, rfl, rfl, rfl⟩

/-- No primary starts with a minus sign, so that a negation without one is a primary. -/
theorem Yields.bare (h : Yields (parsePrimary ts) t rest) : Yields (parseNegation ts) t rest := by
  rw [parseNegation.eq_def]
  split
  · obtain ⟨p, hp, -⟩ := h
    rw [parsePrimary] at hp
    cases hp
  · exact h

theorem Yields.group (h : Yields (parseSum ts) t (.rparen :: rest)) :
    Yields (parsePrimary (.lparen :: ts)) t rest := by
  obtain ⟨p, hp, rfl, hrest⟩ := h
  obtain ⟨close, hclose, -, rfl⟩ := hrest ▸ yields_expect
  rw [parsePrimary, hp]
  simp only [hclose]
  exact ⟨_, rfl, rfl, rfl⟩

theorem Yields.call {word : String} {f : Function} (named : f.IsNamed word)
    (admitted : f.admits args.length = true)
    (h : Resumes (parseArguments ts) args (.rparen :: rest)) :
    Yields (parsePrimary (.word word :: .lparen :: ts)) (.call f args) rest := by
  obtain ⟨q, hq, rfl, hrest⟩ := h
  obtain ⟨close, hclose, -, rfl⟩ := hrest ▸ yields_expect
  rw [parsePrimary, Function.ofName?_eq_some_iff.2 named]
  simp only [expect_self, hq, hclose, admitted, if_true]
  exact ⟨_, rfl, rfl, rfl⟩

theorem resumes_parseArguments_of_rparen :
    Resumes (parseArguments (.rparen :: ts)) [] (.rparen :: ts) := by
  rw [parseArguments]
  exact ⟨_, rfl, rfl, rfl⟩

/-- No expression starts with a closing parenthesis, so that where a list of them can be read no
such parenthesis stands in front. -/
theorem Resumes.arguments (hne : ts.head? ≠ some .rparen)
    (h : Yields (parseArgumentList ts) args rest) : Resumes (parseArguments ts) args rest := by
  obtain ⟨p, hp, rfl, rfl⟩ := h
  rw [parseArguments.eq_def]
  split
  · exact absurd rfl hne
  · rw [hp]
    exact ⟨_, rfl, rfl, rfl⟩

theorem Yields.last (h : Yields (parseSum ts) t (.rparen :: rest)) :
    Yields (parseArgumentList ts) [t] (.rparen :: rest) := by
  obtain ⟨p, hp, rfl, hrest⟩ := h
  rw [parseArgumentList, hp]
  dsimp only
  split
  · simp_all
  · exact ⟨_, rfl, rfl, hrest⟩

theorem Yields.next (hfirst : Yields (parseSum ts) t (.comma :: mid))
    (hmore : Yields (parseArgumentList mid) args rest) :
    Yields (parseArgumentList ts) (t :: args) rest := by
  obtain ⟨p, hp, rfl, hrest⟩ := hfirst
  obtain ⟨q, hq, rfl, rfl⟩ := hmore
  rw [parseArgumentList, hp]
  dsimp only
  split
  · next mid' hmid =>
    cases hrest.symm.trans hmid
    simp only [hq]
    exact ⟨_, rfl, rfl, rfl⟩
  · simp_all

/-- No phrase is empty, and none starts with a closing parenthesis. -/
theorem Derives.head (h : Derives phrase ts t) :
    ∃ first rest, ts = first :: rest ∧ first ≠ .rparen := by
  induction h with
  | sum _ _ _ ih _ | product _ _ _ ih _ =>
    obtain ⟨first, rest, rfl, hne⟩ := ih
    exact ⟨first, _, rfl, hne⟩
  | bare _ ih => exact ih
  | negate | int | text | column | group | call => exact ⟨_, _, rfl, nofun⟩

/-- Behind a product stand signs of a sum only, if the sum ends where it should. -/
theorem endsBefore_spelling {more : List RightOperand} (hstop : Phrase.sum.EndsBefore rest)
    (signs : ∀ o ∈ more, o.op.isAdditive = true) :
    Phrase.product.EndsBefore (spelling more ++ rest) := by
  cases more with
  | nil => exact hstop.2
  | cons o more =>
    have hadditive := signs o List.mem_cons_self
    obtain ⟨op, read, u⟩ := o
    cases op <;> first | rfl | cases hadditive

theorem spelling_cons_append (o : RightOperand) (more : List RightOperand) (rest : List Token) :
    spelling (o :: more) ++ rest = o.op.sign :: (o.tokens ++ (spelling more ++ rest)) := by
  simp [spelling]

theorem resumes_parseSumTail (more : List RightOperand) (left : Tree)
    (hstop : Phrase.sum.EndsBefore rest) (signs : ∀ o ∈ more, o.op.isAdditive = true)
    (operands : ∀ o ∈ more, Reads .product o.tokens o.tree) :
    Resumes (parseSumTail left (spelling more ++ rest)) (grouped left more) rest := by
  induction more generalizing left with
  | nil => exact resumes_parseSumTail_of_none hstop.1
  | cons o more ih =>
    obtain ⟨hadditive, signs⟩ := List.forall_mem_cons.1 signs
    obtain ⟨hread, operands⟩ := List.forall_mem_cons.1 operands
    rw [spelling_cons_append]
    exact .sum (sumOperator?_eq_some_iff.2 ⟨rfl, hadditive⟩)
      (hread _ (endsBefore_spelling hstop signs)) (ih _ signs operands)

theorem resumes_parseProductTail (more : List RightOperand) (left : Tree)
    (hstop : Phrase.product.EndsBefore rest) (signs : ∀ o ∈ more, o.op.isAdditive = false)
    (operands : ∀ o ∈ more, Reads .negation o.tokens o.tree) :
    Resumes (parseProductTail left (spelling more ++ rest)) (grouped left more) rest := by
  induction more generalizing left with
  | nil => exact resumes_parseProductTail_of_none hstop
  | cons o more ih =>
    obtain ⟨hadditive, signs⟩ := List.forall_mem_cons.1 signs
    obtain ⟨hread, operands⟩ := List.forall_mem_cons.1 operands
    rw [spelling_cons_append]
    exact .product (productOperator?_eq_some_iff.2 ⟨rfl, hadditive⟩) (hread _ trivial)
      (ih _ signs operands)

theorem yields_parseArgumentList (a : List Token × Tree) (sums : List (List Token × Tree))
    (hreads : ∀ b ∈ a :: sums, Reads .sum b.1 b.2) :
    Yields (parseArgumentList
        ([Token.comma].intercalate ((a :: sums).map Prod.fst) ++ .rparen :: rest))
      ((a :: sums).map Prod.snd) (.rparen :: rest) := by
  induction sums generalizing a with
  | nil =>
    have hread := hreads a List.mem_cons_self (.rparen :: rest) ⟨rfl, rfl⟩
    have hts : [Token.comma].intercalate ([a].map Prod.fst) ++ .rparen :: rest =
        a.1 ++ .rparen :: rest := by simp
    rw [hts]
    exact Yields.last hread
  | cons b sums ih =>
    obtain ⟨hread, hreads⟩ := List.forall_mem_cons.1 hreads
    have hts : [Token.comma].intercalate ((a :: b :: sums).map Prod.fst) ++ .rparen :: rest =
        a.1 ++ .comma ::
          ([Token.comma].intercalate ((b :: sums).map Prod.fst) ++ .rparen :: rest) := by
      simp
    rw [hts]
    exact Yields.next (hread _ ⟨rfl, rfl⟩) (ih b hreads)

theorem resumes_parseArguments (sums : List (List Token × Tree))
    (hderives : ∀ a ∈ sums, Derives .sum a.1 a.2) (hreads : ∀ a ∈ sums, Reads .sum a.1 a.2) :
    Resumes (parseArguments
        ([Token.comma].intercalate (sums.map Prod.fst) ++ .rparen :: rest))
      (sums.map Prod.snd) (.rparen :: rest) := by
  cases sums with
  | nil => exact resumes_parseArguments_of_rparen
  | cons a sums =>
    refine .arguments ?_ (yields_parseArgumentList a sums hreads)
    obtain ⟨first, more, hhead, hne⟩ := (hderives a List.mem_cons_self).head
    cases sums with
    | nil => simp [hhead, hne]
    | cons b sums => simp [hhead, hne]

/-- What is derivable is read, with the tree of the derivation. -/
theorem Derives.reads (h : Derives phrase ts t) : Reads phrase ts t := by
  induction h with
  | @sum us u more first signs operands ihFirst ihOperands =>
    intro rest hstop
    rw [List.append_assoc]
    have hfirst := ihFirst _ (endsBefore_spelling hstop signs)
    exact Yields.sum hfirst (resumes_parseSumTail more u hstop signs ihOperands)
  | @product us u more first signs operands ihFirst ihOperands =>
    intro rest hstop
    rw [List.append_assoc]
    have hfirst := ihFirst (spelling more ++ rest) trivial
    exact Yields.product hfirst (resumes_parseProductTail more u hstop signs ihOperands)
  | negate inner ih => exact fun rest hstop => Yields.negate (ih rest hstop)
  | bare inner ih => exact fun rest hstop => Yields.bare (ih rest hstop)
  | int i | text s | column name =>
    intro rest _
    rw [Phrase.parse, List.singleton_append, parsePrimary]
    exact ⟨_, rfl, rfl, rfl⟩
  | @group us u inner ih =>
    intro rest _
    rw [List.cons_append, List.append_assoc]
    exact Yields.group (ih _ ⟨rfl, rfl⟩)
  | @call word f args named admitted sums ih =>
    intro rest _
    rw [List.cons_append, List.cons_append, List.append_assoc]
    rw [← List.length_map Prod.snd] at admitted
    exact Yields.call named admitted (resumes_parseArguments args sums ih)

/-! ### The parser and its grammar -/

theorem derives_of_parse (h : Tree.parse ts = .ok t) : Derives .sum ts t := by
  unfold Tree.parse at h
  split at h
  · cases h
  · next p hp =>
    split at h
    · next hrest =>
      cases h
      obtain ⟨read, hts, hderives⟩ := heads_parseSum ts hp
      rw [hrest, List.append_nil] at hts
      exact hts ▸ hderives
    · cases h

theorem Derives.parse (h : Derives .sum ts t) : Tree.parse ts = .ok t := by
  have hyields := h.reads [] ⟨rfl, rfl⟩
  rw [List.append_nil] at hyields
  obtain ⟨p, hp, rfl, hrest⟩ := hyields
  simp only [Phrase.parse] at hp
  simp only [Tree.parse, hp, hrest]

/-- A product by itself is a sum. -/
theorem Derives.sum_of_product {ts : List Token} {t : Tree} (h : Derives .product ts t) :
    Derives .sum ts t := by
  have hsum : Derives .sum (ts ++ spelling []) (grouped t []) := .sum h (by simp) (by simp)
  simpa [spelling, grouped] using hsum

/-- A primary by itself is a sum. -/
theorem Derives.sum_of_primary {ts : List Token} {t : Tree} (h : Derives .primary ts t) :
    Derives .sum ts t := by
  have hproduct : Derives .product (ts ++ spelling []) (grouped t []) :=
    .product (.bare h) (by simp) (by simp)
  refine Derives.sum_of_product ?_
  simpa [spelling, grouped] using hproduct

/-- The text of an expression denotes the tree of its tokens. -/
theorem parse_source_eq_ok_iff {source : String} {e : Expression} :
    Expression.parse source = .ok e ↔
      e.source = source ∧
        ∃ tokens, Token.scan source.toList = .ok tokens ∧ Tree.parse tokens = .ok e.root := by
  unfold Expression.parse
  split
  · next hscan => simp [hscan]
  · next hscan =>
    have hempty : Tree.parse [] ≠ .ok e.root := fun h => by
      obtain ⟨first, rest, h, -⟩ := (derives_of_parse h).head
      cases h
    simp [hscan, hempty]
  · next tokens _ hscan =>
    split
    · next hparse => simp [hscan, hparse]
    · next root hparse =>
      obtain ⟨written, tree⟩ := e
      simp [hscan, hparse, eq_comm]

/-- The parser accepts exactly the token lists that the grammar derives, all of each, and builds the
one tree that the grammar gives it: operators of one rank group to the left, those of products bind
tighter than those of sums, and negation binds tightest. On every other list it ends with an error.
A text is an expression just if its tokens are. -/
theorem parse_eq_ok_iff_derives (ts : List Token) :
    (∀ t, Tree.parse ts = .ok t ↔ Derives .sum ts t) ∧
    ((∃ t, Tree.parse ts = .ok t) ↔ ∃! t, Derives .sum ts t) ∧
    ((∃ e, Tree.parse ts = .error e) ↔ ∀ t, ¬ Derives .sum ts t) ∧
    ∀ source e, Expression.parse source = .ok e ↔
      e.source = source ∧
        ∃ tokens, Token.scan source.toList = .ok tokens ∧ Derives .sum tokens e.root := by
  have hiff : ∀ ts t, Tree.parse ts = .ok t ↔ Derives .sum ts t :=
    fun _ _ => ⟨derives_of_parse, Derives.parse⟩
  refine ⟨hiff ts, ⟨?_, ?_⟩, ⟨?_, ?_⟩, ?_⟩
  · rintro ⟨t, ht⟩
    refine ⟨t, (hiff ts t).1 ht, fun u hu => ?_⟩
    exact Except.ok.inj (((hiff ts u).2 hu).symm.trans ht)
  · rintro ⟨t, ht, -⟩
    exact ⟨t, (hiff ts t).2 ht⟩
  · rintro ⟨e, he⟩ t ht
    cases he.symm.trans ((hiff ts t).2 ht)
  · intro hnone
    cases hparse : Tree.parse ts with
    | ok t => exact absurd ((hiff ts t).1 hparse) (hnone t)
    | error e => exact ⟨e, rfl⟩
  · intro source e
    simp only [parse_source_eq_ok_iff, hiff]

/-- `7 - 2 * -3 - 1` is `(7 - (2 * (-3))) - 1`. -/
example : Tree.parse [.int 7, .minus, .int 2, .star, .minus, .int 3, .minus, .int 1] =
    .ok (.binary .sub (.binary .sub (.literal (.int 7))
      (.binary .mul (.literal (.int 2)) (.negate (.literal (.int 3))))) (.literal (.int 1))) := by
  cbv

end ShardRouting.Expression
