import ShardRouting.Failure
import ShardRouting.Settings

/-!
# Rules

A rule chooses a part of a partition by the values of its columns: by a named algorithm or by an
expression. Main content: `Rule.build`, `Rule.isColumn` and `Rule.key`.
-/

namespace ShardRouting

/-- How a rule finds its key. -/
inductive RuleKind where
  /-- By an algorithm with arguments. -/
  | algorithm (run : KeyAlgorithm) (args : List Int64)
  /-- By the value of an expression. -/
  | expression (e : Expression)

/-- A rule: its columns in compared form, and how it finds its key. -/
structure Rule where
  /-- The columns, in declared order. -/
  columns : List RuleColumn
  /-- How the key is found. -/
  kind : RuleKind

namespace Rule

/-- The name in a placeholder behind its dollar sign and opening brace, where a placeholder with a
plain name stands there: a letter or underscore, more word characters, blanks around them. -/
def plainPlaceholder? (cs : List Char) : Option (List Char) :=
  let inner := cs.dropWhile Text.isBlank
  let name := inner.takeWhile Expression.isWordChar
  let behind := (inner.dropWhile Expression.isWordChar).dropWhile Text.isBlank
  match name, behind with
  | c :: _, '\x7d' :: _ => if Expression.isWordStart c then some name else none
  | _, _ => none

/-- The plain names of the placeholders in a text, also of those inside literal texts. -/
def plainPlaceholders : List Char → List (List Char)
  | '$' :: '\x7b' :: cs =>
    match plainPlaceholder? cs with
    | some name => name :: plainPlaceholders cs
    | none => plainPlaceholders cs
  | _ :: cs => plainPlaceholders cs
  | [] => []

/-- The first placeholder of an expression that no column is declared for. -/
def undeclared? (columns : List RuleColumn) (source : String) : Option String :=
  ((plainPlaceholders source.toList).map fun name =>
    String.ofList (Identifier.normalChars name)).find? fun name =>
      !columns.any fun c => c.name == name

/-- How a rule finds its key, according to settings. -/
def buildKind (registry : Registry) (columns : List RuleColumn) (s : RuleSettings) :
    Except SettingsFault RuleKind :=
  match s.algorithm, s.expression with
  | some name, none =>
    match registry.find? name with
    | some run => .ok (.algorithm run s.args)
    | none => .error (.unknownAlgorithm name)
  | none, some source =>
    match undeclared? columns source with
    | some name => .error (.undeclaredColumn name)
    | none =>
      match Expression.parse source with
      | .ok e => .ok (.expression e)
      | .error e => .error (.badExpression source e)
  | _, _ => .error .ruleChoice

/-- The rule of settings, or the first fault in them. -/
def build (registry : Registry) (s : RuleSettings) : Except SettingsFault Rule :=
  let columns := s.columns.map fun c => { c with name := Identifier.normalize c.name }
  if columns = [] then .error .ruleWithoutColumns
  else
    match buildKind registry columns s with
    | .ok kind => .ok ⟨columns, kind⟩
    | .error fault => .error fault

/-- The columns that routing needs values for. -/
def requiredColumns (r : Rule) : List RuleColumn :=
  r.columns.filter RuleColumn.required

/-- Whether a name is that of a column of the rule. -/
def isColumn (r : Rule) (name : String) : Bool :=
  r.columns.any fun c => c.name == Identifier.normalize name

/-- The key of the values that a row binds, given the number of parts. -/
def key (r : Rule) (partitionCount : Nat) (row : Row) : Except KeyFault Key :=
  match r.kind with
  | .algorithm run args =>
    run partitionCount args (r.columns.map fun c => (row.get? c.name).getD .null)
  | .expression e =>
    match e.eval row with
    | .error fault => .error (.expression fault)
    | .ok none => .error .absent
    | .ok (some (.int i)) => .ok (.index i)
    | .ok (some (.text s)) => .ok (.name s)

end Rule

end ShardRouting
