import ShardRouting.Expression.Token

/-!
# Trees of rule expressions

The trees of the expression language and the parser that builds them from tokens. Sums bind
loosest, products tighter, negation tightest; sums and products group to the left. Main content:
`Tree`, `ParseError` with its wording, and `Tree.parse`. Every parsing step leaves fewer tokens, so
parsing ends.
-/

namespace ShardRouting.Expression

/-- An operator between two operands. -/
inductive Operator where
  /-- Addition. -/
  | add
  /-- Subtraction. -/
  | sub
  /-- Multiplication. -/
  | mul
  /-- Division toward zero. -/
  | div
  /-- The remainder of the division toward zero. -/
  | rem
  deriving DecidableEq, Repr

/-- A function of the expression language. -/
inductive Function where
  /-- The polynomial hash of a text. -/
  | hash
  /-- The cyclic redundancy check of the bytes of an operand. -/
  | crc32
  /-- The magnitude of an integer. -/
  | abs
  /-- A piece of a text. -/
  | substr
  /-- The texts of the operands one behind the other. -/
  | concat
  /-- The first operand that is not absent. -/
  | coalesce
  deriving DecidableEq, Repr

/-- The function of a name, whatever the case of its letters. -/
def Function.ofName? (name : String) : Option Function :=
  match name.toList.map Char.toLower with
  | ['h', 'a', 's', 'h'] => some .hash
  | ['c', 'r', 'c', '3', '2'] => some .crc32
  | ['a', 'b', 's'] => some .abs
  | ['s', 'u', 'b', 's', 't', 'r'] => some .substr
  | ['c', 'o', 'n', 'c', 'a', 't'] => some .concat
  | ['c', 'o', 'a', 'l', 'e', 's', 'c', 'e'] => some .coalesce
  | _ => none

/-- Whether a function takes a number of arguments. -/
def Function.admits : Function → Nat → Bool
  | .hash, n | .crc32, n | .abs, n => n = 1
  | .substr, n => n = 2 || n = 3
  | .concat, n | .coalesce, n => 1 ≤ n

/-- An operand that is not absent. -/
inductive Scalar where
  /-- An integer. -/
  | int (i : Int64)
  /-- A text. -/
  | text (s : String)
  deriving DecidableEq, Repr

/-- The tree of an expression. -/
inductive Tree where
  /-- A literal. -/
  | literal (s : Scalar)
  /-- The value of a column. -/
  | column (name : String)
  /-- The negative of an operand. -/
  | negate (t : Tree)
  /-- Two operands with an operator between them. -/
  | binary (op : Operator) (left right : Tree)
  /-- A function of its arguments. -/
  | call (f : Function) (args : List Tree)
  deriving Repr

/-- Why a text is no expression. -/
inductive ParseError where
  /-- The text has no tokens. -/
  | scan (e : ScanError)
  /-- The text holds no token at all. -/
  | empty
  /-- One token must stand where another, or the end, was found. -/
  | expected (t : Token) (found : Option Token)
  /-- A word names no function. -/
  | unknownFunction (name : String)
  /-- A function does not take this number of arguments. -/
  | argumentCount (name : String)
  /-- No operand begins with this token, or at the end. -/
  | unexpected (found : Option Token)
  /-- A token stands behind a complete expression. -/
  | trailing (t : Token)
  deriving DecidableEq, Repr

/-- The wording of a parse error. -/
def ParseError.message : ParseError → String
  | .scan e => e.message
  | .empty => "empty expression"
  | .expected t (some found) => "expected " ++ t.describe ++ ", found " ++ found.describe
  | .expected t none => "expected " ++ t.describe ++ ", found end of input"
  | .unknownFunction name => "unknown function " ++ name
  | .argumentCount name => "wrong number of arguments for " ++ name
  | .unexpected (some t) => "unexpected token " ++ t.describe
  | .unexpected none => "unexpected end of input"
  | .trailing t => "unexpected trailing token " ++ t.describe

/-- What a parsing step reads from tokens: a value, and fewer tokens behind it. -/
structure Parsed (α : Type) (ts : List Token) where
  /-- What was read. -/
  value : α
  /-- The tokens behind it. -/
  rest : List Token
  /-- At least one token was read. -/
  shorter : rest.length < ts.length

/-- What an optional parsing step reads: a value, and no more tokens than before. -/
structure Continued (α : Type) (ts : List Token) where
  /-- What was read. -/
  value : α
  /-- The tokens behind it. -/
  rest : List Token
  /-- No token was added. -/
  noLonger : rest.length ≤ ts.length

/-- Reads one given token. -/
def expect (t : Token) : (ts : List Token) → Except ParseError (Parsed Unit ts)
  | [] => .error (.expected t none)
  | found :: ts =>
    if found = t then .ok ⟨(), ts, Nat.lt_succ_self _⟩ else .error (.expected t (some found))

/-- The operator of a sum at the head of tokens, and the tokens behind it. -/
def sumOperator? : List Token → Option (Operator × List Token)
  | .plus :: ts => some (.add, ts)
  | .minus :: ts => some (.sub, ts)
  | _ => none

/-- The operator of a product at the head of tokens, and the tokens behind it. -/
def productOperator? : List Token → Option (Operator × List Token)
  | .star :: ts => some (.mul, ts)
  | .slash :: ts => some (.div, ts)
  | .percent :: ts => some (.rem, ts)
  | _ => none

theorem length_of_sumOperator? {ts rest : List Token} {op : Operator}
    (h : sumOperator? ts = some (op, rest)) : rest.length < ts.length := by
  unfold sumOperator? at h
  split at h <;> cases h <;> simp

theorem length_of_productOperator? {ts rest : List Token} {op : Operator}
    (h : productOperator? ts = some (op, rest)) : rest.length < ts.length := by
  unfold productOperator? at h
  split at h <;> cases h <;> simp

mutual

/-- Reads a sum: products with `+` and `-` between them. -/
def parseSum (ts : List Token) : Except ParseError (Parsed Tree ts) :=
  match parseProduct ts with
  | .error e => .error e
  | .ok first =>
    have := first.shorter
    match parseSumTail first.value first.rest with
    | .error e => .error e
    | .ok more => .ok ⟨more.value, more.rest, Nat.lt_of_le_of_lt more.noLonger first.shorter⟩
  termination_by (ts.length, 3)
  decreasing_by
    · exact .right _ (by decide)
    · exact .left _ _ first.shorter

/-- Reads the further summands behind a tree. -/
def parseSumTail (left : Tree) (ts : List Token) : Except ParseError (Continued Tree ts) :=
  match h : sumOperator? ts with
  | none => .ok ⟨left, ts, Nat.le_refl _⟩
  | some (op, rest) =>
    have := length_of_sumOperator? h
    match parseProduct rest with
    | .error e => .error e
    | .ok right =>
      have := right.shorter
      match parseSumTail (.binary op left right.value) right.rest with
      | .error e => .error e
      | .ok more => .ok ⟨more.value, more.rest, by have := more.noLonger; omega⟩
  termination_by (ts.length, 0)
  decreasing_by
    · exact .left _ _ (length_of_sumOperator? h)
    · exact .left _ _ (Nat.lt_trans right.shorter (length_of_sumOperator? h))

/-- Reads a product: negations with `*`, `/` and `%` between them. -/
def parseProduct (ts : List Token) : Except ParseError (Parsed Tree ts) :=
  match parseNegation ts with
  | .error e => .error e
  | .ok first =>
    have := first.shorter
    match parseProductTail first.value first.rest with
    | .error e => .error e
    | .ok more => .ok ⟨more.value, more.rest, Nat.lt_of_le_of_lt more.noLonger first.shorter⟩
  termination_by (ts.length, 2)
  decreasing_by
    · exact .right _ (by decide)
    · exact .left _ _ first.shorter

/-- Reads the further factors behind a tree. -/
def parseProductTail (left : Tree) (ts : List Token) : Except ParseError (Continued Tree ts) :=
  match h : productOperator? ts with
  | none => .ok ⟨left, ts, Nat.le_refl _⟩
  | some (op, rest) =>
    have := length_of_productOperator? h
    match parseNegation rest with
    | .error e => .error e
    | .ok right =>
      have := right.shorter
      match parseProductTail (.binary op left right.value) right.rest with
      | .error e => .error e
      | .ok more => .ok ⟨more.value, more.rest, by have := more.noLonger; omega⟩
  termination_by (ts.length, 0)
  decreasing_by
    · exact .left _ _ (length_of_productOperator? h)
    · exact .left _ _ (Nat.lt_trans right.shorter (length_of_productOperator? h))

/-- Reads an operand with any number of minus signs in front. -/
def parseNegation : (ts : List Token) → Except ParseError (Parsed Tree ts)
  | .minus :: ts =>
    match parseNegation ts with
    | .error e => .error e
    | .ok inner => .ok ⟨.negate inner.value, inner.rest, Nat.lt_succ_of_lt inner.shorter⟩
  | ts => parsePrimary ts
  termination_by ts => (ts.length, 1)
  decreasing_by
    · exact .left _ _ (Nat.lt_succ_self _)
    · exact .right _ (by decide)

/-- Reads a literal, a placeholder, an expression in parentheses or a call. -/
def parsePrimary : (ts : List Token) → Except ParseError (Parsed Tree ts)
  | [] => .error (.unexpected none)
  | t :: ts =>
    match t with
    | .int i => .ok ⟨.literal (.int i), ts, Nat.lt_succ_self _⟩
    | .text s => .ok ⟨.literal (.text s), ts, Nat.lt_succ_self _⟩
    | .column name => .ok ⟨.column name, ts, Nat.lt_succ_self _⟩
    | .lparen =>
      match parseSum ts with
      | .error e => .error e
      | .ok inner =>
        match expect .rparen inner.rest with
        | .error e => .error e
        | .ok close =>
          .ok ⟨inner.value, close.rest,
            Nat.lt_succ_of_lt (Nat.lt_trans close.shorter inner.shorter)⟩
    | .word name =>
      match Function.ofName? name with
      | none => .error (.unknownFunction name)
      | some f =>
        match expect .lparen ts with
        | .error e => .error e
        | .ok opening =>
          have := opening.shorter
          match parseArguments opening.rest with
          | .error e => .error e
          | .ok args =>
            match expect .rparen args.rest with
            | .error e => .error e
            | .ok close =>
              if f.admits args.value.length then
                .ok ⟨.call f args.value, close.rest, by
                  have := close.shorter
                  have := args.noLonger
                  simp only [List.length_cons]
                  omega⟩
              else .error (.argumentCount name)
    | .plus | .minus | .star | .slash | .percent | .rparen | .comma =>
      .error (.unexpected (some t))
  termination_by ts => (ts.length, 0)
  decreasing_by
    · exact .left _ _ (Nat.lt_succ_self _)
    · exact .left _ _ (Nat.lt_succ_of_lt opening.shorter)

/-- Reads the arguments of a call: none in front of a closing parenthesis. -/
def parseArguments : (ts : List Token) → Except ParseError (Continued (List Tree) ts)
  | .rparen :: ts => .ok ⟨[], .rparen :: ts, Nat.le_refl _⟩
  | ts =>
    match parseArgumentList ts with
    | .error e => .error e
    | .ok args => .ok ⟨args.value, args.rest, Nat.le_of_lt args.shorter⟩
  termination_by ts => (ts.length, 5)
  decreasing_by exact .right _ (by decide)

/-- Reads one expression or more with commas between them. -/
def parseArgumentList (ts : List Token) : Except ParseError (Parsed (List Tree) ts) :=
  match parseSum ts with
  | .error e => .error e
  | .ok first =>
    have := first.shorter
    match h : first.rest with
    | .comma :: rest =>
      have : rest.length < ts.length := by rw [h, List.length_cons] at this; omega
      match parseArgumentList rest with
      | .error e => .error e
      | .ok more => .ok ⟨first.value :: more.value, more.rest, Nat.lt_trans more.shorter this⟩
    | rest => .ok ⟨[first.value], rest, by rw [← h]; exact first.shorter⟩
  termination_by (ts.length, 4)
  decreasing_by
    · exact .right _ (by decide)
    · exact .left _ _ this

end

/-- The tree of a token list that is one complete expression. -/
def Tree.parse (ts : List Token) : Except ParseError Tree :=
  match parseSum ts with
  | .error e => .error e
  | .ok parsed =>
    match parsed.rest with
    | [] => .ok parsed.value
    | t :: _ => .error (.trailing t)

end ShardRouting.Expression
