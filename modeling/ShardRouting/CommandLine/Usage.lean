/-!
# Options and commands

Reading the arguments of a command: uses of its options, and then perhaps the name of a further
command. Every option takes a value, which is written behind it as an argument of its own, behind an
equals sign, or right behind the letter of the option. A value that is an argument of its own may
not look like an option, but may be the name of a command. Main content: `Scanned.scan?` and
`Scanned.ofArguments?`.
-/

namespace ShardRouting.CommandLine

/-- An option of a command. -/
structure Flag where
  /-- The letter that stands for it behind one hyphen, where it has one. -/
  letter : Option Char := none
  /-- The name that stands for it behind two hyphens. -/
  name : String
  /-- Whether it may be used more than once. -/
  repeatable : Bool := false
  /-- Whether it has to be used. -/
  required : Bool := false
  deriving DecidableEq, Repr

/-- What an argument looks like. -/
inductive Argument where
  /-- Two hyphens alone: no option and no command stands behind them. -/
  | separator
  /-- The name of an option, and the value behind an equals sign. -/
  | named (name : String) (value : Option String)
  /-- The letter of an option, and the value right behind it. -/
  | lettered (letter : Char) (value : Option String)
  /-- Anything else. -/
  | plain
  deriving DecidableEq, Repr

/-- The value behind an equals sign, where there is a sign. -/
def signedValue? : List Char → Option String
  | '=' :: cs => some (String.ofList cs)
  | _ => none

/-- What the characters of an argument look like. -/
def Argument.ofChars : List Char → Argument
  | ['-', '-'] => .separator
  | '-' :: '-' :: cs =>
    .named (String.ofList (cs.takeWhile (· != '='))) (signedValue? (cs.dropWhile (· != '=')))
  | ['-', c] => .lettered c none
  | '-' :: c :: cs => .lettered c (some ((signedValue? cs).getD (String.ofList cs)))
  | _ => .plain

/-- A use of an option, with its value where it has one. -/
structure Use where
  /-- The option. -/
  flag : Flag
  /-- Its value. -/
  value : Option String
  deriving DecidableEq, Repr

/-- What the arguments of a command say. -/
structure Scanned where
  /-- The uses of its options. -/
  uses : List Use
  /-- The further command, and the arguments behind its name. -/
  command : Option (String × List String) := none
  deriving DecidableEq, Repr

namespace Scanned

/-- What arguments say, with a use in front. -/
def behind (u : Option Use) (s : Scanned) : Scanned :=
  { s with uses := u.toList ++ s.uses }

/-- What arguments say to a command with some options and some further commands; an option in front
of them may wait for its value. -/
def scan? (flags : List Flag) (commands : List String) (waiting : Option Flag) :
    List String → Option Scanned
  | [] => some ⟨(waiting.map fun f => ⟨f, none⟩).toList, none⟩
  | arg :: args =>
    let idle : Option Use := waiting.map fun f => ⟨f, none⟩
    let next (flag : Option Flag) (value : Option String) : Option Scanned :=
      match flag, value with
      | none, _ => none
      | some f, some v =>
        (scan? flags commands none args).map fun s => (s.behind (some ⟨f, some v⟩)).behind idle
      | some f, none => (scan? flags commands (some f) args).map (behind idle)
    if waiting.isNone && commands.contains arg then some ⟨[], some (arg, args)⟩
    else
      match Argument.ofChars arg.toList, waiting with
      | .separator, _ => if args.isEmpty then some ⟨idle.toList, none⟩ else none
      | .named name value, _ => next (flags.find? fun f => f.name == name) value
      | .lettered c value, _ => next (flags.find? fun f => f.letter == some c) value
      | .plain, some f =>
        (scan? flags commands none args).map (behind (some ⟨f, some arg⟩))
      | .plain, none => none

/-- The values that were given to an option, in order. -/
def values (s : Scanned) (f : Flag) : List String :=
  (s.uses.filter fun u => u.flag == f).filterMap Use.value

/-- Whether an option is used as often as it may be, and has a value where it is used. -/
def admits (s : Scanned) (f : Flag) : Bool :=
  let count := (s.uses.filter fun u => u.flag == f).length
  if count = 0 then !f.required
  else (f.repeatable || count == 1) && !(s.values f).isEmpty

/-- What arguments say to a command, where its options are used as they may be. -/
def ofArguments? (flags : List Flag) (commands : List String) (args : List String) :
    Option Scanned :=
  (scan? flags commands none args).filter fun s => flags.all s.admits

end Scanned

end ShardRouting.CommandLine
