import ShardRouting.Integer

/-!
# Tokens of TOML

The words of the TOML format and the scanner that cuts a text into them. A carriage return in front
of a line feed is part of the line end, and a byte order mark in front of everything is passed over.
Comments are passed over too, since each is followed by a line end or nothing; blanks are tokens,
because some places do not admit them. Main content: `Token` and `Token.scan?`, which ends because
each token shortens the text.
-/

namespace ShardRouting.Toml

/-- A token of the format. -/
inductive Token where
  /-- The end of a line. -/
  | newline
  /-- Spaces and tabs, and whether they are a single space. -/
  | blank (single : Bool)
  /-- The sign `=`. -/
  | equals
  /-- The sign `.`. -/
  | period
  /-- The sign `,`. -/
  | comma
  /-- The sign `:`. -/
  | colon
  /-- The sign `+`. -/
  | plus
  /-- An opening brace. -/
  | openBrace
  /-- A closing brace. -/
  | closeBrace
  /-- An opening bracket. -/
  | openBracket
  /-- A closing bracket. -/
  | closeBracket
  /-- A bare word: letters, digits, hyphens and underscores. -/
  | word (cs : List Char)
  /-- A quoted text, and whether it may go over several lines. -/
  | text (s : String) (lines : Bool)
  deriving DecidableEq, Repr

/-- The token that a sign is. -/
def Token.ofSign? : Char → Option Token
  | '\n' => some .newline
  | '=' => some .equals
  | '.' => some .period
  | ',' => some .comma
  | ':' => some .colon
  | '+' => some .plus
  | '\x7b' => some .openBrace
  | '\x7d' => some .closeBrace
  | '[' => some .openBracket
  | ']' => some .closeBracket
  | _ => none

/-- Whether a character belongs to bare words. -/
def isBare (c : Char) : Bool :=
  c.isAlphanum || c == '-' || c == '_'

/-- Whether a character is a space or a tab. -/
def isGap (c : Char) : Bool :=
  c == ' ' || c == '\t'

/-- Whether a character may stand in a comment. -/
def isCommented (c : Char) : Bool :=
  c == '\t' || decide (' ' ≤ c)

/-- Whether a character may stand as itself in a quoted text. -/
def isQuotable (c : Char) : Bool :=
  isCommented c && c != '\x7f'

/-- What was read from the front of a text, and the shorter text behind it. -/
structure Front (α : Type) (cs : List Char) where
  /-- What was read. -/
  value : α
  /-- The text behind it. -/
  rest : List Char
  /-- At least one character was read. -/
  shorter : rest.length < cs.length

theorem length_lt_cons (c : Char) (cs : List Char) : cs.length < (c :: cs).length :=
  Nat.lt_succ_self _

/-- Reads no character but the first. -/
def Front.one {α : Type} (a : α) (c : Char) (cs : List Char) : Front α (c :: cs) :=
  ⟨a, cs, length_lt_cons c cs⟩

/-- Reads the first character and some of those behind it. -/
def Front.dropped {α : Type} (a : α) (c : Char) (cs : List Char) (n : Nat) : Front α (c :: cs) :=
  ⟨a, cs.drop n, by simp only [List.length_drop, List.length_cons]; omega⟩

/-- Reads the first character and those behind it with a property. -/
def Front.past {α : Type} (a : α) (c : Char) (cs : List Char) (p : Char → Bool) :
    Front α (c :: cs) :=
  ⟨a, cs.dropWhile p, Nat.lt_succ_of_le (List.dropWhile_sublist p).length_le⟩

/-! ## Quoted texts -/

/-- The characters that are written as a backslash and one letter or sign. -/
def escapes : List (Char × Char) :=
  [('"', '"'), ('\\', '\\'), ('b', '\x08'), ('f', '\x0c'), ('n', '\n'), ('r', '\r'), ('t', '\t')]

/-- The character with a code, where the code is one of a character. -/
def character? (code : Nat) : Option Char :=
  if code < 0xd800 ∨ (0xdfff < code ∧ code < 0x110000) then some (Char.ofNat code) else none

/-- The character whose code a number of hexadecimal digits at the front of a text give. -/
def coded? (digits : Nat) (cs : List Char) : Option Char :=
  if digits ≤ cs.length then (Integer.ofDigitsIn? 16 (cs.take digits)).bind character? else none

/-- A step through a quoted text: more of the text, and whether it ends there. -/
structure Step where
  /-- More of the text. -/
  more : List Char
  /-- Whether the text ends. -/
  ends : Bool

/-- The step at a backslash. A line end behind it, with the blanks around, stands for nothing where
the text may go over several lines. -/
def escapeStep? (lines : Bool) (slash : Char) (cs : List Char) : Option (Front Step (slash :: cs)) :=
  let behind := cs.dropWhile isGap
  if lines ∧ behind.head? = some '\n' then
    some (.past ⟨[], false⟩ slash cs fun c => isGap c || c == '\n')
  else
    match cs with
    | 'u' :: code => (coded? 4 code).map fun c => .dropped ⟨[c], false⟩ slash _ 5
    | 'U' :: code => (coded? 8 code).map fun c => .dropped ⟨[c], false⟩ slash _ 9
    | c :: _ => (escapes.lookup c).map fun e => .dropped ⟨[e], false⟩ slash _ 1
    | [] => none

/-- The step at a quote. One quote ends a text of one line; three end a text of several, up to two
more in front of them belong to it, and fewer are part of it. -/
def quoteStep (lines : Bool) (quote : Char) (cs : List Char) : Front Step (quote :: cs) :=
  let more := (cs.takeWhile (· == quote)).length
  if !lines then .one ⟨[], true⟩ quote cs
  else if more < 2 then .one ⟨[quote], false⟩ quote cs
  else .dropped ⟨List.replicate (min more 4 - 2) quote, true⟩ quote cs (min more 4)

/-- The next step through a quoted text. -/
def step? (quote : Char) (lines : Bool) : (cs : List Char) → Option (Front Step cs)
  | [] => none
  | c :: cs =>
    if c = quote then some (quoteStep lines c cs)
    else if c = '\n' then
      if lines then some (.one ⟨[c], false⟩ c cs) else none
    else if c = '\\' ∧ quote = '"' then escapeStep? lines c cs
    else if isQuotable c then some (.one ⟨[c], false⟩ c cs)
    else none

/-- A quoted text behind its opening quotes. -/
def body? (quote : Char) (lines : Bool) (cs : List Char) : Option (Front (List Char) cs) :=
  match step? quote lines cs with
  | none => none
  | some s =>
    have := s.shorter
    if s.value.ends then some ⟨s.value.more, s.rest, s.shorter⟩
    else
      (body? quote lines s.rest).map fun more =>
        ⟨s.value.more ++ more.value, more.rest, Nat.lt_trans more.shorter s.shorter⟩
  termination_by cs.length

/-- The quoted text that a quote opens. Three quotes open a text that may go over several lines; a
line end right behind them is not part of it. -/
def quoted? (quote : Char) (cs : List Char) : Option (Front Token (quote :: cs)) :=
  if cs.head? ≠ some quote then
    (body? quote false cs).map fun b =>
      ⟨.text (String.ofList b.value) false, b.rest, Nat.lt_succ_of_lt b.shorter⟩
  else if cs.tail.head? ≠ some quote then some (.dropped (.text "" false) quote cs 1)
  else
    let inner := cs.drop 2
    let start := if inner.head? = some '\n' then inner.tail else inner
    (body? quote true start).map fun b =>
      ⟨.text (String.ofList b.value) true, b.rest, by
        have := b.shorter
        have : start.length ≤ cs.length := by
          simp only [start, inner]; split <;> simp only [List.length_tail, List.length_drop] <;> omega
        simp only [List.length_cons]; omega⟩

/-! ## The scanner -/

/-- The token at the front of a text, or none where a comment stands there. -/
def front? (c : Char) (cs : List Char) : Option (Front (Option Token) (c :: cs)) :=
  if isGap c then
    some (.past (some (.blank (decide (c = ' ') && cs.head?.all fun d => !isGap d))) c cs isGap)
  else if c = '#' then some (.past none c cs isCommented)
  else if c = '"' ∨ c = '\x27' then
    (quoted? c cs).map fun t => ⟨some t.value, t.rest, t.shorter⟩
  else if isBare c then some (.past (some (.word (c :: cs.takeWhile isBare))) c cs isBare)
  else (Token.ofSign? c).map fun t => .one (some t) c cs

/-- The tokens of a text whose line ends are line feeds. -/
def tokens? : List Char → Option (List Token)
  | [] => some []
  | c :: cs =>
    match front? c cs with
    | none => none
    | some t =>
      have := t.shorter
      (tokens? t.rest).map fun more => t.value.toList ++ more
  termination_by cs => cs.length
  decreasing_by exact t.shorter

/-- A text with a line feed alone at each line end. -/
def joinLineEnds : List Char → List Char
  | '\r' :: '\n' :: cs => '\n' :: joinLineEnds cs
  | c :: cs => c :: joinLineEnds cs
  | [] => []

/-- A text without a byte order mark in front. -/
def withoutMark : List Char → List Char
  | '\ufeff' :: cs => cs
  | cs => cs

/-- The tokens of a text. -/
def Token.scan? (s : String) : Option (List Token) :=
  tokens? (withoutMark (joinLineEnds s.toList))

end ShardRouting.Toml
