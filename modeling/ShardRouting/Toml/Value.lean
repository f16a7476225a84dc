import ShardRouting.Toml.Number
import ShardRouting.Toml.Paths

/-!
# Values of TOML

Keys, and the values that stand behind them: quoted texts, the values of bare words, lists in
brackets and tables in braces. Lists go over several lines, tables in braces do not. Main content:
`key?` and `value?`; each reads at least one token, so reading ends.
-/

namespace ShardRouting.Toml

/-- What was read from the front of tokens, and the fewer tokens behind it. -/
structure Taken (α : Type) (ts : List Token) where
  /-- What was read. -/
  value : α
  /-- The tokens behind it. -/
  rest : List Token
  /-- At least one token was read. -/
  fewer : rest.length < ts.length

/-- Reads the first token and some of those behind it. -/
def Kept.taken {α : Type} {ts : List Token} (t : Token) (k : Kept α ts) : Taken α (t :: ts) :=
  ⟨k.value, k.rest, Nat.lt_succ_of_le k.noMore⟩

/-- The tokens without the blanks in front. -/
def skipBlanks (ts : List Token) : List Token :=
  ts.dropWhile fun t => t == .blank true || t == .blank false

/-- The tokens without the blanks and line ends in front. -/
def skipLines (ts : List Token) : List Token :=
  ts.dropWhile fun t => t == .blank true || t == .blank false || t == .newline

theorem length_skipBlanks_le (ts : List Token) : (skipBlanks ts).length ≤ ts.length :=
  (List.dropWhile_sublist _).length_le

theorem length_lt_of_skipBlanks {ts rest : List Token} (t : Token) (h : skipBlanks ts = rest) :
    rest.length < (t :: ts).length :=
  h ▸ Nat.lt_succ_of_le (length_skipBlanks_le ts)

theorem length_skipBlanks_lt_of_cons {ts more : List Token} {sign : Token} (t : Token)
    (h : skipBlanks ts = sign :: more) : (skipBlanks more).length < (t :: ts).length :=
  Nat.lt_of_le_of_lt (length_skipBlanks_le more)
    (Nat.lt_of_succ_lt (length_lt_of_skipBlanks t h))

theorem length_skipLines_le (ts : List Token) : (skipLines ts).length ≤ ts.length :=
  (List.dropWhile_sublist _).length_le

/-- The key that a token is. -/
def keyPart? : Token → Option String
  | .word cs => some (String.ofList cs)
  | .text s false => some s
  | _ => none

/-- A key with points between its parts, and the blanks behind it. -/
def key? : (ts : List Token) → Option (Taken (List String) ts)
  | [] => none
  | t :: ts =>
    match keyPart? t with
    | none => none
    | some part =>
      match h : skipBlanks ts with
      | .period :: more =>
        have hmore := length_skipBlanks_lt_of_cons t h
        (key? (skipBlanks more)).map fun k =>
          ⟨part :: k.value, k.rest, Nat.lt_trans k.fewer hmore⟩
      | rest => some ⟨[part], rest, length_lt_of_skipBlanks t h⟩
  termination_by ts => ts.length
  decreasing_by exact hmore

/-- A key, the sign behind it, and the blanks behind that. -/
def keyAndSign? (ts : List Token) : Option (Taken (List String) ts) :=
  (key? ts).bind fun k =>
    match h : k.rest with
    | .equals :: rest =>
      some ⟨k.value, skipBlanks rest, by
        have := k.fewer
        have := length_skipBlanks_le rest
        rw [h] at *; simp only [List.length_cons] at *; omega⟩
    | _ => none

/-- The table in braces with some values under paths; one entry that is an empty table in braces may
also be meant as a name. -/
def braced? (l : Paths Document) : Option Document :=
  match l with
  | [([name], .table [])] => some (.choice name (.table []))
  | l => (nested? l).map .table

mutual

/-- Reads a value. -/
def value? : (ts : List Token) → Option (Taken Document ts)
  | .text s _ :: ts => some ((Kept.all (.text s) ts).taken _)
  | .word w :: ts => (wordValue? w ts).map (Kept.taken _)
  | .plus :: .word w :: ts => (number? w ts).map fun k => (k.behind _).taken _
  | .openBracket :: ts =>
    (items? ts).map fun t => ⟨.list t.value, t.rest, Nat.lt_succ_of_lt t.fewer⟩
  | .openBrace :: ts =>
    have hts := length_skipBlanks_le ts
    match h : skipBlanks ts with
    | .closeBrace :: rest =>
      some ⟨.table [], rest, by rw [h] at hts; simp only [List.length_cons] at *; omega⟩
    | start =>
      (entries? start).bind fun t =>
        (braced? t.value).map fun d =>
          ⟨d, t.rest, by have := t.fewer; rw [h] at hts; simp only [List.length_cons]; omega⟩
  | _ => none
  termination_by ts => 2 * ts.length

/-- Reads the values of a list, behind its bracket or behind a comma, up to the closing bracket. -/
def items? (ts : List Token) : Option (Taken (List Document) ts) :=
  have hts := length_skipLines_le ts
  match h : skipLines ts with
  | .closeBracket :: rest =>
    some ⟨[], rest, by rw [h] at hts; simp only [List.length_cons] at hts; omega⟩
  | start =>
    have : start.length ≤ ts.length := h ▸ hts
    match value? start with
    | none => none
    | some v =>
      have hv := v.fewer
      have hrest := length_skipLines_le v.rest
      match h' : skipLines v.rest with
      | .comma :: rest =>
        have : rest.length < ts.length := by
          rw [h'] at hrest; rw [h] at hts; simp only [List.length_cons] at *; omega
        (items? rest).map fun more =>
          ⟨v.value :: more.value, more.rest, Nat.lt_trans more.fewer this⟩
      | .closeBracket :: rest =>
        some ⟨[v.value], rest, by
          rw [h'] at hrest; rw [h] at hts; simp only [List.length_cons] at *; omega⟩
      | _ => none
  termination_by 2 * ts.length + 1

/-- Reads the entries of a table in braces, at least one, up to the closing brace. -/
def entries? (ts : List Token) : Option (Taken (Paths Document) ts) :=
  match keyAndSign? ts with
  | none => none
  | some k =>
    have hk := k.fewer
    match value? k.rest with
    | none => none
    | some v =>
      have hv := v.fewer
      have hrest := length_skipBlanks_le v.rest
      match h : skipBlanks v.rest with
      | .closeBrace :: rest =>
        some ⟨[(k.value, v.value)], rest, by
          rw [h] at hrest; simp only [List.length_cons] at *; omega⟩
      | .comma :: rest =>
        have hmore := length_skipBlanks_le rest
        have : (skipBlanks rest).length < ts.length := by
          rw [h] at hrest; simp only [List.length_cons] at *; omega
        (entries? (skipBlanks rest)).map fun more =>
          ⟨(k.value, v.value) :: more.value, more.rest, Nat.lt_trans more.fewer this⟩
      | _ => none
  termination_by 2 * ts.length + 1

end

end ShardRouting.Toml
