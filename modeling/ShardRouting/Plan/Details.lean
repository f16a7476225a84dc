import ShardRouting.Plan

/-!
# Details of planning

What is told about the planning of a statement to those who look for a fault: the parts that each
key chooses, the targets of rows and conditions, and the fragments, in the order in which they are
found. Planning that fails tells what was found before. Main content: `Plan.details`.
-/

namespace ShardRouting

namespace Router

/-- What is told of the key of a row, where it chooses parts. -/
def keyDetail? (r : Router) (row : Row) : Option String :=
  match r.rule.key r.partition.length row with
  | .error _ => none
  | .ok key =>
    match r.chosen key with
    | [] => none
    | positions =>
      some ("router " ++ r.id ++ " key " ++ key.toText ++ " matched partition [" ++
        ", ".intercalate (positions.map toString) ++ "]")

/-- What is told of the keys of rows, up to the first row that has a fault. -/
def keyDetails (r : Router) : List Row → List String
  | [] => []
  | row :: rows =>
    match r.missingColumn? row, r.keyDetail? row with
    | none, some detail => detail :: r.keyDetails rows
    | _, _ => []

/-- What is told of the keys of all combinations of candidate values. -/
def candidateDetails (r : Router) (candidates : List (String × List Value)) : List String :=
  if candidates.any fun c => c.2.isEmpty then []
  else
    match candidates with
    | [] => (r.keyDetail? []).toList
    | candidates =>
      let named := candidates.map fun (column, values) => (Identifier.normalize column, values)
      r.keyDetails ((combinations named).map rowOf)

end Router

namespace Catalog

/-- What is told of the target of a row of a table. -/
def rowTargetDetail (table : String) (t : Target) : String :=
  "table " ++ table ++ " row routed to " ++ t.text

/-- What is told of the route of one row. -/
def rowDetails (c : Catalog) (table : String) (row : Row) : List String :=
  match c.find table with
  | .error _ => []
  | .ok t =>
    match t.placement with
    | .whole _ => t.allTargets.map (rowTargetDetail t.name)
    | .copied _ => []
    | .routed router =>
      router.keyDetails [row] ++
        match router.route t.name row with
        | .ok [target] => [rowTargetDetail t.name target]
        | _ => []

/-- What is told of the route of conditions. -/
def conditionDetails (c : Catalog) (table : String) (conditions : List Condition) : List String :=
  match c.find table with
  | .error _ => []
  | .ok t =>
    match t.placement with
    | .whole _ => []
    | .copied _ => []
    | .routed router =>
      let pinned := pinAll router.rule conditions
      let unpinned := router.rule.requiredColumns.find? fun column =>
        !pinned.any fun entry => entry.1 == column.name
      match unpinned with
      | some column => ["table " ++ t.name ++ " column " ++ column.name ++ " not pinned, full scan"]
      | none =>
        router.candidateDetails pinned ++
          match router.routeAll t.name pinned with
          | .ok targets =>
            ["table " ++ t.name ++ " routed to " ++ toString targets.length ++ " node(s)"]
          | .error _ => []

end Catalog

namespace Plan

/-- What is told of the routes of the rows of a statement, up to the first row without a route. -/
def rowDetails (c : Catalog) (s : Statement) : List (List Cell) → List String
  | [] => []
  | cells :: rows =>
    let row := Statement.bindCells s.columns cells
    c.rowDetails s.table row ++
      match c.routeRow s.table row with
      | .ok _ => rowDetails c s rows
      | .error _ => []

/-- What is told of the routes of a statement. -/
def routeDetails (c : Catalog) (s : Statement) : List String :=
  match checkCells s with
  | .error _ => []
  | .ok _ =>
    match s.kind with
    | .insert | .merge => rowDetails c s s.rows
    | .update =>
      match c.checkAssigned s.table s.columns with
      | .ok _ => c.conditionDetails s.table s.conditions
      | .error _ => []
    | .delete | .select => c.conditionDetails s.table s.conditions

/-- What is told about the planning of a statement, in order. -/
def details (c : Catalog) (draw : Nat) (s : Statement) : List String :=
  routeDetails c s ++
    match routed c draw s with
    | .ok plan => plan.fragments.map fun f => "fragment " ++ f.text
    | .error _ => []

end Plan

end ShardRouting
