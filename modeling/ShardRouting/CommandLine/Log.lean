import ShardRouting.Integer
import ShardRouting.Text.Lines
import ShardRouting.Text.Quoted

/-!
# Logs

How serious an event is, which events a log level lets through, and how a message is written: by
code as far as terminals would act on it. Only the first line of a message stands behind the head of
its log line. Main content: `Severity.ofText?`, `isLogged`, `Event.entry` and `Event.continuation`.
-/

namespace ShardRouting.CommandLine

/-- How serious an event is. -/
inductive Severity where
  /-- Something failed. -/
  | error
  /-- Something may go wrong. -/
  | warn
  /-- Something went as it should. -/
  | info
  /-- A detail for those who look for a fault. -/
  | debug
  /-- A step of the work. -/
  | trace
  deriving DecidableEq, Repr

namespace Severity

/-- The name of a severity. -/
def name : Severity → String
  | .error => "ERROR"
  | .warn => "WARN"
  | .info => "INFO"
  | .debug => "DEBUG"
  | .trace => "TRACE"

/-- The number of a severity, less for more serious ones. -/
def rank : Severity → Nat
  | .error => 1
  | .warn => 2
  | .info => 3
  | .debug => 4
  | .trace => 5

/-- All severities. -/
def all : List Severity := [.error, .warn, .info, .debug, .trace]

/-- The severity that a text names or numbers; letters may be of either case. -/
def ofText? (s : String) : Option Severity :=
  let number : Option Int := if s.startsWith "-" then none else Integer.integer? s.toList
  (all.find? fun v => number == some v.rank).or (all.find? fun v => v.name == s.toUpper)

end Severity

/-- An event of a run. -/
structure Event where
  /-- How serious it is. -/
  severity : Severity
  /-- What happened. -/
  message : String
  /-- Whether it is a detail of planning, and not told by the program itself. -/
  ofPlanning : Bool := false
  deriving DecidableEq, Repr

/-- A character as it is logged. The controls that terminals act on are written by code: bell,
backspace, form feed, escape, delete, and those from U+0080 to U+009F. -/
def loggedChar (c : Char) : List Char :=
  if c = '\x07' || c = '\x08' || c = '\x0c' then ['\\', 'x', '0'] ++ Nat.toDigits 16 c.toNat
  else if c = '\x1b' || c = '\x7f' then ['\\', 'x'] ++ Nat.toDigits 16 c.toNat
  else if 0x80 ≤ c.toNat && c.toNat ≤ 0x9f then Text.codePointEscape c
  else [c]

namespace Event

/-- The message as it is logged. -/
def text (e : Event) : String :=
  String.ofList (e.message.toList.flatMap loggedChar)

/-- The line behind the head of the log line. -/
def entry (e : Event) : String :=
  (Text.lines e.text).headD ""

/-- The lines that follow the log line, without a head of their own. -/
def continuation (e : Event) : List String :=
  (Text.lines e.text).tail

end Event

/-- Whether a log level lets an event through; a level that names no severity lets none through. -/
def isLogged (level : String) (e : Event) : Bool :=
  (Severity.ofText? level).any fun least => decide (e.severity.rank ≤ least.rank)

end ShardRouting.CommandLine
