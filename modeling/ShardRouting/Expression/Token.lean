import ShardRouting.Identifier
import ShardRouting.Integer
import ShardRouting.Text.Quoted

/-!
# Tokens of rule expressions

The words of the expression language and the scanner that cuts a text into them. Blanks separate
tokens and mean nothing else. Main content: `Token`, `ScanError` with its wording, and
`Token.scan`, which ends because every lexeme shortens the text.
-/

namespace ShardRouting.Expression

/-- A token of the expression language. -/
inductive Token where
  /-- An integer. -/
  | int (i : Int64)
  /-- A literal text. -/
  | text (s : String)
  /-- A bare word, the name of a function. -/
  | word (name : String)
  /-- A placeholder for the value of a column, in the column's compared form. -/
  | column (name : String)
  /-- The sign `+`. -/
  | plus
  /-- The sign `-`. -/
  | minus
  /-- The sign `*`. -/
  | star
  /-- The sign `/`. -/
  | slash
  /-- The sign `%`. -/
  | percent
  /-- An opening parenthesis. -/
  | lparen
  /-- A closing parenthesis. -/
  | rparen
  /-- A comma. -/
  | comma
  deriving DecidableEq, Repr

/-- A token as messages show it. -/
def Token.describe : Token → String
  | .int i => "Int(" ++ Integer.numeral i ++ ")"
  | .text s => "Str(" ++ Text.quoted s ++ ")"
  | .word name => "Ident(" ++ Text.quoted name ++ ")"
  | .column name => "Placeholder(" ++ Text.quoted name ++ ")"
  | .plus => "Plus"
  | .minus => "Minus"
  | .star => "Star"
  | .slash => "Slash"
  | .percent => "Percent"
  | .lparen => "LParen"
  | .rparen => "RParen"
  | .comma => "Comma"

/-- Why a text has no tokens. -/
inductive ScanError where
  /-- A word that starts with a digit is no integer in range. -/
  | invalidNumber (word : String)
  /-- A literal text is not closed. -/
  | unclosedText
  /-- A dollar sign is not followed by an opening brace. -/
  | missingBrace
  /-- A placeholder is not closed. -/
  | unclosedColumn
  /-- A placeholder holds nothing but blanks. -/
  | emptyColumn
  /-- A character begins no token. -/
  | unexpected (c : Char)
  deriving DecidableEq, Repr

/-- The wording of a scan error. -/
def ScanError.message : ScanError → String
  | .invalidNumber word => "invalid number " ++ Text.quoted word
  | .unclosedText => "unterminated string literal"
  | .missingBrace => "expected '\x7b' after '$'"
  | .unclosedColumn => "unterminated placeholder"
  | .emptyColumn => "empty placeholder"
  | .unexpected c => "unexpected character " ++ Text.quotedChar c

/-- Whether a character may stand in a word: an ASCII letter, a digit or an underscore. -/
def isWordChar (c : Char) : Bool :=
  c.isAlphanum || c = '_'

/-- Whether a character may begin a word that is no number. -/
def isWordStart (c : Char) : Bool :=
  c.isAlpha || c = '_'

/-- The token of a character that is one by itself. -/
def Token.ofSign? : Char → Option Token
  | '+' => some .plus
  | '-' => some .minus
  | '*' => some .star
  | '/' => some .slash
  | '%' => some .percent
  | '(' => some .lparen
  | ')' => some .rparen
  | ',' => some .comma
  | _ => none

/-- The contents of a literal text behind its opening quote, and what follows the closing one. A
doubled quote stands for a quote. -/
def literalBody : List Char → Option (List Char × List Char)
  | [] => none
  | '\x27' :: '\x27' :: cs => (literalBody cs).map fun (body, rest) => ('\x27' :: body, rest)
  | '\x27' :: cs => some ([], cs)
  | c :: cs => (literalBody cs).map fun (body, rest) => (c :: body, rest)

/-- The name in a placeholder behind its opening brace, and what follows the closing one. -/
def columnBody : List Char → Option (List Char × List Char)
  | [] => none
  | '\x7d' :: cs => some ([], cs)
  | c :: cs => (columnBody cs).map fun (body, rest) => (c :: body, rest)

/-- What follows a literal text is no longer than the text was. -/
theorem length_of_literalBody {cs body rest : List Char} (h : literalBody cs = some (body, rest)) :
    rest.length < cs.length := by
  fun_induction literalBody cs generalizing body rest with
  | case1 => cases h
  | case2 cs ih =>
    obtain ⟨⟨b, r⟩, hb, he⟩ := Option.map_eq_some_iff.1 h
    cases he
    have := ih hb
    simp only [List.length_cons]; omega
  | case3 cs => cases h; simp
  | case4 c cs _ _ ih =>
    obtain ⟨⟨b, r⟩, hb, he⟩ := Option.map_eq_some_iff.1 h
    cases he
    have := ih hb
    simp only [List.length_cons]; omega

/-- What follows a placeholder is no longer than the text was. -/
theorem length_of_columnBody {cs body rest : List Char} (h : columnBody cs = some (body, rest)) :
    rest.length < cs.length := by
  fun_induction columnBody cs generalizing body rest with
  | case1 => cases h
  | case2 cs => cases h; simp
  | case3 c cs _ ih =>
    obtain ⟨⟨b, r⟩, hb, he⟩ := Option.map_eq_some_iff.1 h
    cases he
    have := ih hb
    simp only [List.length_cons]; omega

/-- A token and the text behind it, which is shorter than the text it was read from. -/
structure Lexeme (cs : List Char) where
  /-- The token. -/
  token : Token
  /-- The text behind the token. -/
  rest : List Char
  /-- The token took at least one character. -/
  shorter : rest.length < cs.length

/-- The text behind a word. -/
def afterWord (cs : List Char) : List Char :=
  cs.dropWhile isWordChar

theorem length_afterWord_le (cs : List Char) : (afterWord cs).length ≤ cs.length :=
  (List.dropWhile_sublist _).length_le

/-- The number at the start of a text. -/
def scanNumber (c : Char) (cs : List Char) : Except ScanError (Lexeme (c :: cs)) :=
  let word := c :: cs.takeWhile isWordChar
  match (Integer.natural? word).bind fun n => Integer.narrow? n with
  | some i => .ok ⟨.int i, afterWord cs, Nat.lt_succ_of_le (length_afterWord_le cs)⟩
  | none => .error (.invalidNumber (String.ofList word))

/-- The literal text behind an opening quote. -/
def scanText (c : Char) (cs : List Char) : Except ScanError (Lexeme (c :: cs)) :=
  match h : literalBody cs with
  | some (body, rest) =>
    .ok ⟨.text (String.ofList body), rest, Nat.lt_succ_of_lt (length_of_literalBody h)⟩
  | none => .error .unclosedText

/-- The placeholder behind a dollar sign. -/
def scanColumn (c : Char) : (cs : List Char) → Except ScanError (Lexeme (c :: cs))
  | '\x7b' :: cs =>
    match h : columnBody cs with
    | some (body, rest) =>
      let name := Text.trimmed Text.isBlank body
      if name = [] then .error .emptyColumn
      else
        .ok ⟨.column (Identifier.normalize (String.ofList name)), rest,
          Nat.lt_succ_of_lt (Nat.lt_succ_of_lt (length_of_columnBody h))⟩
    | none => .error .unclosedColumn
  | _ => .error .missingBrace

/-- The token at the start of a text that does not start with a blank. -/
def scanLexeme (c : Char) (cs : List Char) : Except ScanError (Lexeme (c :: cs)) :=
  if c.isDigit then scanNumber c cs
  else if c = '\x27' then scanText c cs
  else if c = '$' then scanColumn c cs
  else if isWordStart c then
    .ok ⟨.word (String.ofList (c :: cs.takeWhile isWordChar)), afterWord cs,
      Nat.lt_succ_of_le (length_afterWord_le cs)⟩
  else
    match Token.ofSign? c with
    | some t => .ok ⟨t, cs, Nat.lt_succ_self _⟩
    | none => .error (.unexpected c)

/-- The tokens of a text, or the first fault in it. -/
def Token.scan : List Char → Except ScanError (List Token)
  | [] => .ok []
  | c :: cs =>
    if Text.isBlank c then Token.scan cs
    else
      match scanLexeme c cs with
      | .error e => .error e
      | .ok lexeme =>
        have := lexeme.shorter
        match Token.scan lexeme.rest with
        | .error e => .error e
        | .ok tokens => .ok (lexeme.token :: tokens)
  termination_by cs => cs.length
  decreasing_by
    · exact Nat.lt_succ_self _
    · exact lexeme.shorter

end ShardRouting.Expression
