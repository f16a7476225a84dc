import ShardRouting.Table

/-!
# Plans

The fragments that a statement becomes: texts on physical tables with the values bound in them, one
fragment for each target of a write and one for each shard of a read. Main content: `Fragment`,
`Plan` and `Plan.ofStatement`.
-/

namespace ShardRouting

/-- A statement on physical tables of one shard. -/
structure Fragment where
  /-- The shard. -/
  shard : String
  /-- The text. -/
  sql : String
  /-- The values bound in the text. -/
  params : List Value
  /-- The physical tables that are read or written. -/
  targets : List Target

/-- The text of a fragment with its values. -/
def Fragment.text (f : Fragment) : String :=
  let bound :=
    if f.params.isEmpty then ""
    else " -- (" ++ ", ".intercalate (f.params.map Value.toText) ++ ")"
  "[" ++ f.shard ++ "] " ++ f.sql ++ bound

/-- The fragments of a statement. -/
structure Plan where
  /-- What the statement does. -/
  kind : StatementKind
  /-- The fragments, in order. -/
  fragments : List Fragment
  /-- Whether they write copies of the same rows. -/
  broadcast : Bool

namespace Plan

/-- How many shards a plan reaches. -/
def shardCount (p : Plan) : Nat :=
  (p.fragments.map Fragment.shard).eraseDups.length

/-- Refuses rows that have more or fewer cells than there are columns, and written rows without
columns. -/
def checkCells (s : Statement) : Except RoutingFault Unit :=
  if s.kind = .select ∨ s.kind = .delete then .ok ()
  else if s.columns.length = 0 then .error (.cellCount 0 0)
  else
    match s.rows.find? fun cells => cells.length ≠ s.columns.length with
    | some cells => .error (.cellCount s.columns.length cells.length)
    | none => .ok ()

/-- The text of a cell; a value that is bound is a question mark. -/
def cellText : Cell → String
  | .useDefault => "DEFAULT"
  | .value .null => "NULL"
  | .value _ => "?"

/-- The value that a cell binds, where it binds one. -/
def cellParam? : Cell → Option Value
  | .useDefault => none
  | .value .null => none
  | .value v => some v

/-- A physical table as a statement refers to it. -/
def tableText (s : Statement) (t : Target) : String :=
  match s.alias with
  | some name => t.physicalName ++ " " ++ name
  | none => t.physicalName

/-- A clause with a word in front, where there is one. -/
def clauseText (word : String) : Option String → String
  | some text => " " ++ word ++ " " ++ text
  | none => ""

/-- The condition of a statement. -/
def whereText (s : Statement) : String :=
  clauseText "WHERE" (s.condition.map Clause.sql)

/-- The limit of a statement. -/
def limitText (s : Statement) : String :=
  clauseText "LIMIT" (s.limit.map Clause.sql)

/-- The order and the limit of a statement. -/
def orderText (s : Statement) : String :=
  clauseText "ORDER BY" s.orderBy ++ limitText s

/-- The keys by which a merge finds rows. -/
def keyText (s : Statement) : String :=
  if s.kind = .merge ∧ s.keyColumns ≠ [] then
    "KEY (" ++ ", ".intercalate s.keyColumns ++ ") "
  else ""

/-- A fragment on one physical table. -/
def single (t : Target) (sql : String) (params : List Value) : Fragment :=
  ⟨t.shard, sql, params, [t]⟩

/-- The fragment that adds a row to a physical table. -/
def insertFragment (s : Statement) (cells : List Cell) (t : Target) : Fragment :=
  let verb := if s.kind = .merge then "MERGE INTO " else "INSERT INTO "
  single t
    (verb ++ t.physicalName ++ " (" ++ ", ".intercalate s.columns ++ ") " ++ keyText s ++
      "VALUES (" ++ ", ".intercalate (cells.map cellText) ++ ")")
    (cells.filterMap cellParam?)

/-- The cells that an update assigns. -/
def assignments (s : Statement) : List (String × Cell) :=
  s.columns.zip (s.rows.headD [])

/-- The fragment that changes rows of a physical table. -/
def updateFragment (s : Statement) (t : Target) : Fragment :=
  let sets := (assignments s).map fun (column, cell) => column ++ " = " ++ cellText cell
  single t
    ("UPDATE " ++ tableText s t ++ " SET " ++ ", ".intercalate sets ++ whereText s ++ limitText s)
    ((assignments s).filterMap (fun entry => cellParam? entry.2) ++ s.clauseParams)

/-- The fragment that removes rows of a physical table. -/
def deleteFragment (s : Statement) (t : Target) : Fragment :=
  single t ("DELETE FROM " ++ tableText s t ++ whereText s ++ limitText s) s.clauseParams

/-- The text that reads one physical table. -/
def branchText (s : Statement) (t : Target) : String :=
  "SELECT " ++ s.selectList.getD "*" ++ " FROM " ++ tableText s t ++ whereText s

/-- The text that reads several physical tables of a shard as one. -/
def unionText (s : Statement) (targets : List Target) : String :=
  "SELECT * FROM (" ++ " UNION ALL ".intercalate (targets.map (branchText s)) ++ ") " ++
    s.alias.getD s.table

/-- The fragment that reads the physical tables of a shard. The values of the condition come once
for each table, those of the limit once. -/
def selectFragment (s : Statement) (shard : String) (targets : List Target) : Fragment :=
  let body :=
    match targets with
    | [t] => branchText s t
    | targets => unionText s targets
  ⟨shard, body ++ orderText s, targets.flatMap (fun _ => s.conditionParams) ++ s.limitParams,
    targets⟩

/-- The route of a read: of copies one is enough, the one that a draw picks. -/
def readRoute (draw : Nat) (r : Route) : Route :=
  if r.broadcast then
    match r.targets[draw % r.targets.length]? with
    | some t => { targets := [t] }
    | none => r
  else r

/-- The fragments that add the rows of a statement, each row at its own targets, and whether some
go to copies. -/
def rowFragments (c : Catalog) (s : Statement) :
    List (List Cell) → Except RoutingFault (List Fragment × Bool)
  | [] => .ok ([], false)
  | cells :: rows => do
    let route ← c.routeRow s.table (Statement.bindCells s.columns cells)
    let (more, broadcast) ← rowFragments c s rows
    .ok (route.targets.map (insertFragment s cells) ++ more, route.broadcast || broadcast)

/-- The plan of a statement, or why it has no targets. -/
def routed (c : Catalog) (draw : Nat) (s : Statement) : Except RoutingFault Plan := do
  checkCells s
  match s.kind with
  | .insert | .merge =>
    let (fragments, broadcast) ← rowFragments c s s.rows
    .ok ⟨s.kind, fragments, broadcast⟩
  | .update =>
    c.checkAssigned s.table s.columns
    let route ← c.routeConditions s.table s.conditions
    .ok ⟨s.kind, route.targets.map (updateFragment s), route.broadcast⟩
  | .delete =>
    let route ← c.routeConditions s.table s.conditions
    .ok ⟨s.kind, route.targets.map (deleteFragment s), route.broadcast⟩
  | .select =>
    let route ← c.routeConditions s.table s.conditions
    .ok ⟨s.kind, (readRoute draw route).byShard.map fun (shard, targets) =>
      selectFragment s shard targets, false⟩

/-- The plan of a statement; a failure names the statement. A draw picks the copy that is read of a
copied table. -/
def ofStatement (c : Catalog) (draw : Nat) (s : Statement) : Except Failure Plan :=
  match routed c draw s with
  | .ok plan => .ok plan
  | .error fault => .error ((Failure.mk (.routing fault) none).forStatement s.displaySql)

end Plan

end ShardRouting
