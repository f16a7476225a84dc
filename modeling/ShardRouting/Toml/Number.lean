import ShardRouting.Binary64.Basic
import ShardRouting.Document
import ShardRouting.Toml.Token

/-!
# Numbers and moments of TOML

The values that are written as bare words: integers in four radixes, other numbers, and dates and
times. Single underscores may stand between digits. Moments are recognised by their shape only.
Main content: `integer?`, `number?` and `moment?`; the last two may read on over further tokens.
-/

namespace ShardRouting.Toml

/-- What was read from the front of tokens, and the tokens behind it, which are no more. -/
structure Kept (α : Type) (ts : List Token) where
  /-- What was read. -/
  value : α
  /-- The tokens behind it. -/
  rest : List Token
  /-- No token was added. -/
  noMore : rest.length ≤ ts.length

/-- Reads no token. -/
def Kept.all {α : Type} (a : α) (ts : List Token) : Kept α ts :=
  ⟨a, ts, Nat.le_refl _⟩

/-- Reads one token more. -/
def Kept.behind {α : Type} {ts : List Token} (t : Token) (k : Kept α ts) : Kept α (t :: ts) :=
  ⟨k.value, k.rest, Nat.le_succ_of_le k.noMore⟩

/-- Reads on behind what was read. -/
def Kept.andThen? {α β : Type} {ts : List Token} (k : Kept α ts)
    (f : α → (rest : List Token) → Option (Kept β rest)) : Option (Kept β ts) :=
  (f k.value k.rest).map fun k' => ⟨k'.value, k'.rest, Nat.le_trans k'.noMore k.noMore⟩

/-! ## Digits -/

/-- Digits without the single underscores between them. -/
def ungrouped? : List Char → Option (List Char)
  | [] => none
  | [c] => if c = '_' then none else some [c]
  | c :: '_' :: cs => if c = '_' then none else (ungrouped? cs).map (c :: ·)
  | c :: cs => if c = '_' then none else (ungrouped? cs).map (c :: ·)

/-- The digits at the front of a text, without underscores, and what is behind them. Where zeros
may not lead, a zero in front is the only digit. -/
def digits? (radix : Nat) (zerosLead : Bool) (cs : List Char) : Option (List Char × List Char) :=
  let isDigit : Char → Bool := fun c => c == '_' || (Integer.digitIn? radix c).isSome
  let run := cs.takeWhile isDigit
  if !zerosLead ∧ run.head? = some '0' ∧ run ≠ ['0'] then none
  else (ungrouped? run).map fun ds => (ds, cs.dropWhile isDigit)

/-- Whether a minus sign stands in front of a text, and the text behind it. -/
def minus : List Char → Bool × List Char
  | '-' :: cs => (true, cs)
  | cs => (false, cs)

/-- The integer of digits that are all of a text, where it fits into 64 bits. -/
def whole? (radix : Nat) (negative zerosLead : Bool) (cs : List Char) : Option Document :=
  match digits? radix zerosLead cs with
  | some (ds, []) =>
    (Integer.ofDigitsIn? radix ds).bind fun n =>
      let i : Int := Binary64.signed negative n
      (Integer.narrow? i).map fun _ => .integer i
  | _ => none

/-- The integer that a word is: decimal with an optional minus sign, or with the mark of another
radix in front. -/
def integer? : List Char → Option Document
  | '0' :: 'x' :: cs => whole? 16 false true cs
  | '0' :: 'o' :: cs => whole? 8 false true cs
  | '0' :: 'b' :: cs => whole? 2 false true cs
  | cs => whole? 10 (minus cs).1 false (minus cs).2

/-! ## Numbers that are not integers -/

/-- The exponent behind its letter; a plus sign in front of it makes it a word of its own. -/
def exponent? (cs : List Char) (ts : List Token) : Option (Kept Int ts) :=
  let read (negative : Bool) (cs : List Char) : Option Int :=
    match digits? 10 true cs with
    | some (ds, []) => some (Binary64.signed negative (Integer.ofDigits ds))
    | _ => none
  match cs, ts with
  | [], .plus :: .word w :: rest =>
    (read false w).map fun e => ((Kept.all e rest).behind _).behind _
  | [], .word w :: rest => (read false w).map fun e => (Kept.all e rest).behind _
  | [], _ => none
  | cs, ts => (read (minus cs).1 (minus cs).2).map fun e => .all e ts

/-- Whether a character is the letter in front of an exponent. -/
def isExponent (c : Char) : Bool :=
  c == 'e' || c == 'E'

/-- The number with some digits in front of the point and some behind it, an exponent in the text
behind those, and tokens behind the text. It has to be nearest to a finite number. -/
def scaled? (whole fraction suffix : List Char) (ts : List Token) : Option (Kept Document ts) :=
  let finish (e : Int) (rest : List Token) : Option (Kept Document rest) :=
    if Binary64.isFinite (Integer.ofDigits (whole ++ fraction)) (e - fraction.length) then
      some (.all .real rest)
    else none
  match suffix with
  | [] => finish 0 ts
  | c :: cs =>
    if isExponent c then (exponent? cs ts).bind fun k => k.andThen? finish else none

/-- The number of a word that has an exponent. -/
def exponential? (w : List Char) (ts : List Token) : Option (Kept Document ts) :=
  (digits? 10 false (minus w).2).bind fun (whole, suffix) => scaled? whole [] suffix ts

/-- The number of a word with a point and the tokens behind it. -/
def pointed? (w : List Char) (ts : List Token) : Option (Kept Document ts) :=
  match digits? 10 false (minus w).2, ts with
  | some (whole, []), .word w' :: rest =>
    (digits? 10 true w').bind fun (fraction, suffix) =>
      (scaled? whole fraction suffix rest).map fun k => k.behind _
  | _, _ => none

/-- Whether a word has the mark of a radix other than ten in front. -/
def isMarked : List Char → Bool
  | '0' :: c :: _ => c == 'x' || c == 'o' || c == 'b'
  | _ => false

/-- The number that a word starts. A point behind the word goes on with it, unless the word is an
integer of a marked radix or has an exponent. -/
def number? (w : List Char) (ts : List Token) : Option (Kept Document ts) :=
  if isMarked w then (integer? w).map fun d => .all d ts
  else if w.any isExponent then exponential? w ts
  else
    match ts with
    | .period :: rest => (pointed? w rest).map fun k => k.behind _
    | ts =>
      if ["inf", "nan"].contains (String.ofList (minus w).2) then some (.all .real ts)
      else (integer? w).map fun d => .all d ts

/-! ## Moments -/

/-- Reads a word behind a sign, where the sign is there. -/
def pastSign? (sign : Token) : (ts : List Token) → Option (Kept Unit ts)
  | [] => some (.all () [])
  | t :: ts =>
    if t = sign then
      match ts with
      | .word _ :: rest => some (((Kept.all () rest).behind _).behind _)
      | _ => none
    else some (.all () (t :: ts))

/-- Reads minutes and seconds with a colon between them, and then perhaps a fraction of a second and
an offset. -/
def pastClock? : (ts : List Token) → Option (Kept Unit ts)
  | .word _ :: .colon :: .word _ :: rest =>
    ((pastSign? .period rest).bind fun k =>
      k.andThen? fun _ ts => (pastSign? .plus ts).bind fun k =>
        k.andThen? fun _ ts => pastSign? .colon ts).map
      fun k => ((k.behind _).behind _).behind _
  | _ => none

/-- Reads a word behind a single space, where both are there. -/
def pastHour : (ts : List Token) → Kept Unit ts
  | .blank true :: .word w :: rest => ((Kept.all () rest).behind (.word w)).behind _
  | ts => .all () ts

/-- The moment that a word starts; its hour may be a word of its own. -/
def moment? (ts : List Token) : Option (Kept Document ts) :=
  (pastHour ts).andThen? fun _ ts =>
    match ts with
    | .colon :: rest => (pastClock? rest).map fun k => ⟨.moment, k.rest, (k.behind _).noMore⟩
    | ts => some (.all .moment ts)

/-- The moment that a word and a colon start. -/
def momentOfHour? (ts : List Token) : Option (Kept Document ts) :=
  (pastHour ts).andThen? fun _ ts =>
    (pastClock? ts).map fun k => ⟨.moment, k.rest, k.noMore⟩

/-! ## Words -/

/-- Whether a hyphen stands behind the letter in front of an exponent. -/
def hasSignedExponent : List Char → Bool
  | c :: '-' :: cs => isExponent c || hasSignedExponent ('-' :: cs)
  | _ :: cs => hasSignedExponent cs
  | [] => false

/-- Whether a word starts a moment: it has the letter between date and time, or a hyphen behind its
first character and no exponent with a sign. -/
def isMoment (w : List Char) : Bool :=
  w.any (fun c => c == 'T' || c == 't') || (w.tail.contains '-' && !hasSignedExponent w)

/-- The value that a word starts. -/
def wordValue? (w : List Char) (ts : List Token) : Option (Kept Document ts) :=
  if w = "true".toList then some (.all (.truth true) ts)
  else if w = "false".toList then some (.all (.truth false) ts)
  else if ["inf", "nan"].contains (String.ofList w) ||
      w.head?.any (fun c => c == '-' || c.isDigit) then
    if isMoment w then moment? ts
    else
      match ts with
      | .colon :: rest => (momentOfHour? rest).map fun k => k.behind _
      | ts => number? w ts
  else none

end ShardRouting.Toml
