import ShardRouting.CommandLine.Request
import ShardRouting.Configuration
import ShardRouting.Datasource.Repository
import ShardRouting.Plan.Details

/-!
# Reports

What is printed for a request: for a check, the make-up of each shard and the physical tables of
each table; for a statement, its fragments. Main content: `checkReport`, `routeReport`,
`routeDetails` and `StatementRequest.statement`.
-/

namespace ShardRouting

/-- The make-up of a shard in words. -/
def Topology.text : Topology → String
  | .standalone => "standalone"
  | .oneMaster => "one master"
  | .multiMaster => "multi master"

/-- A member of a shard with its weights. -/
def MemberSettings.text (m : MemberSettings) : String :=
  m.uid ++ "(r" ++ Integer.numeral m.readWeight ++ "/w" ++ Integer.numeral m.writeWeight ++ ")"

/-- Where the rows of a table are, in words. -/
def Placement.text : Placement → String
  | .whole _ => "single"
  | .routed router => "sharded by " ++ router.id
  | .copied _ => "broadcast"

namespace CommandLine

/-- The line of a shard. -/
def shardLine (s : Selector) : String :=
  "shard " ++ s.shard ++ " [" ++ s.topology.text ++ "]: " ++
    ", ".intercalate (s.members.map MemberSettings.text)

/-- The line of a table, under the name that the settings give it. -/
def tableLine (name : String) (t : Table) : String :=
  "table " ++ name ++ " [" ++ t.placement.text ++ "]: " ++
    ", ".intercalate (t.allTargets.map Target.text)

/-- A failure that comes from settings. -/
def settingsFailure (f : SettingsFault) : Failure :=
  { cause := .settings f }

/-- The tables and the datasources of settings. -/
def build (s : Settings) : Except Failure (Catalog × Repository) := do
  let catalog ← (Catalog.build Registry.builtin s).mapError settingsFailure
  let repository ← (Repository.build s).mapError settingsFailure
  .ok (catalog, repository)

/-- The lines that describe settings. -/
def checkReport (s : Settings) : Except Failure (List String) := do
  let (catalog, repository) ← build s
  let shards := s.shards.filterMap fun shard => (repository.selector? shard.name).map shardLine
  let tables ← s.tables.mapM fun t =>
    match catalog.find t.name with
    | .ok table => .ok (tableLine t.name table)
    | .error fault => .error { cause := .routing fault }
  .ok (shards ++ tables)

/-- The text between two quotes, or the whole text where it is not between quotes. -/
def unquoted (s : String) : String :=
  match s.toList with
  | '\x27' :: cs => if cs.getLast? = some '\x27' then String.ofList cs.dropLast else s
  | _ => s

/-- The value that a text stands for: the word for no value, an integer, or else a text. -/
def valueOf (s : String) : Value :=
  if s.toLower = "null" then .null
  else
    match Integer.ofNumeral? s.toList with
    | some i => .int i
    | none => .text (unquoted s)

/-- The statement that is asked for. Values are the cells of a row to insert, and else conditions
that all hold. -/
def StatementRequest.statement (r : StatementRequest) : Statement :=
  let values := r.values.map fun v => (v.1, valueOf v.2)
  let base : Statement := { kind := r.kind, table := r.table }
  if r.kind = .insert then
    { base with
      columns := values.map Prod.fst
      rows := [values.map fun v => .value v.2] }
  else
    let sql := " AND ".intercalate (values.map fun v => v.1 ++ " = ?")
    { base with
      condition := if values.isEmpty then none else some ⟨sql, values.map Prod.snd⟩
      conditions := values.map fun v => ⟨v.1, .equals v.2⟩ }

/-- The lines that describe the fragments of a statement. -/
def routeReport (s : Settings) (r : StatementRequest) : Except Failure (List String) := do
  let (catalog, _) ← build s
  let plan ← Plan.ofStatement catalog 0 r.statement
  let copies := "broadcast to " ++ toString plan.shardCount ++ " shard(s)"
  .ok (plan.fragments.map Fragment.text ++ if plan.broadcast then [copies] else [])

/-- What is told about the planning of a statement; nothing where settings have a fault. -/
def routeDetails (s : Settings) (r : StatementRequest) : List String :=
  match build s with
  | .ok (catalog, _) => Plan.details catalog 0 r.statement
  | .error _ => []

end CommandLine

end ShardRouting
