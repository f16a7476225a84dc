import ShardRouting.Router

/-!
# Tables

The logical tables and where their rows live: in one shard, spread by a router, or copied to several
shards. Main content: `Catalog.build`, `Catalog.routeRow` for a row, `Catalog.routeConditions` for
the conditions of a statement, and `Catalog.checkAssigned` for the columns of an update.
-/

namespace ShardRouting

/-- Where the rows of a table live. -/
inductive Placement where
  /-- All in one shard. -/
  | whole (shard : String)
  /-- Spread by a router. -/
  | routed (router : Router)
  /-- A copy in each of several shards. -/
  | copied (shards : List String)

/-- A logical table. -/
structure Table where
  /-- Its name in compared form. -/
  name : String
  /-- Where its rows live. -/
  placement : Placement

namespace Table

/-- All physical tables of a table. -/
def allTargets (t : Table) : List Target :=
  match t.placement with
  | .whole shard => [⟨shard, t.name, ""⟩]
  | .routed router => router.allTargets t.name
  | .copied shards => shards.map fun shard => ⟨shard, t.name, ""⟩

/-- Whether every physical table is a copy. -/
def isCopied (t : Table) : Bool :=
  match t.placement with
  | .copied _ => true
  | _ => false

end Table

/-- The targets of a statement. -/
structure Route where
  /-- The physical tables, in the order of the partition. -/
  targets : List Target
  /-- Whether they are all there are because the conditions do not tell. -/
  fullScan : Bool := false
  /-- Whether they are copies of each other. -/
  broadcast : Bool := false
  deriving DecidableEq, Repr

namespace Route

/-- Targets grouped by shard, the shards in the order of their first target. -/
def groupByShard (targets : List Target) : List (String × List Target) :=
  (targets.map Target.shard).eraseDups.map fun shard =>
    (shard, targets.filter fun t => t.shard == shard)

/-- The targets of a route by shard. -/
def byShard (r : Route) : List (String × List Target) :=
  groupByShard r.targets

end Route

/-- Values of which none is the same key as one before it: each value is kept unless one that is
kept already is the same key. -/
def distinctKeys (values : List Value) : List Value :=
  values.foldl (fun kept v => if kept.any fun k => k.sameKey v then kept else kept ++ [v]) []

/-- The logical tables by name. -/
structure Catalog where
  /-- The tables. -/
  tables : List Table

namespace Catalog

/-- Refuses a shard that is not declared. -/
def checkShard (s : Settings) (owner : ShardOwner) (shard : String) : Except SettingsFault Unit :=
  if s.shards.any fun d => d.name == shard then .ok () else .error (.unknownShard owner shard)

/-- Refuses the first of several shards that is not declared. -/
def checkShards (s : Settings) (owner : ShardOwner) : List String → Except SettingsFault Unit
  | [] => .ok ()
  | shard :: shards => do
    checkShard s owner shard
    checkShards s owner shards

/-- The routers of settings, in order, or the first fault in them. -/
def buildRouters (registry : Registry) (s : Settings) (built : List Router) :
    List RouterSettings → Except SettingsFault (List Router)
  | [] => .ok built
  | next :: rest => do
    let router ← Router.build registry next
    checkShards s (.router router.id) (router.partition.map Part.shard)
    if built.any fun r => r.id == router.id then .error (.repeatedRouter router.id)
    else buildRouters registry s (built ++ [router]) rest

/-- Where the rows of a table live, according to settings. A router decides alone, then copies,
then a shard. -/
def buildPlacement (s : Settings) (routers : List Router) (name : String) (t : TableSettings) :
    Except SettingsFault Placement :=
  match t.router, t.broadcast, t.shard with
  | some id, none, _ =>
    match routers.find? fun r => r.id == id with
    | some router => .ok (.routed router)
    | none => .error (.unknownRouter name id)
  | none, some (shard :: shards), _ => do
    checkShards s (.table name) (shard :: shards)
    .ok (.copied (shard :: shards))
  | none, none, some shard => do
    checkShard s (.table name) shard
    .ok (.whole shard)
  | _, _, _ => .error (.tableChoice name)

/-- The tables of settings, in order, or the first fault in them. -/
def buildTables (s : Settings) (routers : List Router) (built : List Table) :
    List TableSettings → Except SettingsFault (List Table)
  | [] => .ok built
  | next :: rest => do
    let name := Identifier.normalize next.name
    let placement ← buildPlacement s routers name next
    if built.any fun t => t.name == name then .error (.repeatedTable name)
    else buildTables s routers (built ++ [⟨name, placement⟩]) rest

/-- The tables of settings, or the first fault in them: routers come before tables. -/
def build (registry : Registry) (s : Settings) : Except SettingsFault Catalog := do
  let routers ← buildRouters registry s [] s.routers
  let tables ← buildTables s routers [] s.tables
  .ok ⟨tables⟩

/-- The table of a name, compared in its normal form. -/
def find (c : Catalog) (table : String) : Except RoutingFault Table :=
  let name := Identifier.normalize table
  match c.tables.find? fun t => t.name == name with
  | some t => .ok t
  | none => .error (.tableUnknown name)

/-- The target of one row; a row of a copied table goes to every copy. -/
def routeRow (c : Catalog) (table : String) (row : Row) : Except RoutingFault Route := do
  let t ← c.find table
  match t.placement with
  | .whole _ => .ok { targets := t.allTargets }
  | .copied _ => .ok { targets := t.allTargets, broadcast := true }
  | .routed router =>
    let targets ← router.route t.name row
    if targets.length = 1 then .ok { targets }
    else .error (.targetCount t.name targets.length)

/-- The values that a restriction allows, where it lists them. -/
def listedValues? : Restriction → Option (List Value)
  | .equals v => some [v]
  | .oneOf vs => some vs
  | .between _ _ => none

/-- The candidate values of columns with those of one more condition: a column that has candidates
keeps those among them that the condition allows too. -/
def pin (pinned : List (String × List Value)) (column : String) (values : List Value) :
    List (String × List Value) :=
  if pinned.any fun entry => entry.1 == column then
    pinned.map fun entry =>
      if entry.1 == column then
        (entry.1, entry.2.filter fun v => values.any fun x => x.sameKey v)
      else entry
  else pinned ++ [(column, values)]

/-- The candidate values of rule columns with those of one more condition. Conditions on other
columns, and those that list no values, do not count; neither do absent values. -/
def pinCondition (rule : Rule) (pinned : List (String × List Value)) (cond : Condition) :
    List (String × List Value) :=
  let column := Identifier.normalize cond.column
  if rule.isColumn column then
    match listedValues? cond.restriction with
    | some values => pin pinned column (distinctKeys (values.filter fun v => !v.isNull))
    | none => pinned
  else pinned

/-- The candidate values of rule columns under conditions. -/
def pinAll (rule : Rule) (conditions : List Condition) : List (String × List Value) :=
  conditions.foldl (pinCondition rule) []

/-- The targets of the rows that meet conditions; all of them where a column that routing needs has
no candidate values. -/
def routeConditions (c : Catalog) (table : String) (conditions : List Condition) :
    Except RoutingFault Route := do
  let t ← c.find table
  match t.placement with
  | .whole _ => .ok { targets := t.allTargets }
  | .copied _ => .ok { targets := t.allTargets, broadcast := true }
  | .routed router =>
    let pinned := pinAll router.rule conditions
    let unpinned := router.rule.requiredColumns.any fun column =>
      !pinned.any fun entry => entry.1 == column.name
    if unpinned then .ok { targets := t.allTargets, fullScan := true }
    else
      let targets ← router.routeAll t.name pinned
      .ok { targets }

/-- Refuses assignments to the columns that decide where a row lives. -/
def checkAssigned (c : Catalog) (table : String) (columns : List String) :
    Except RoutingFault Unit := do
  let t ← c.find table
  match t.placement with
  | .routed router =>
    match columns.find? router.rule.isColumn with
    | some column => .error (.columnFixed t.name (Identifier.normalize column))
    | none => .ok ()
  | _ => .ok ()

end Catalog

end ShardRouting
