import ShardRouting.Distinct
import ShardRouting.Rule

/-!
# Routers

A router spreads tables over a partition: an ordered list of parts, each a shard and a suffix of
table names. Its rule chooses parts by key. Main content: `Target`, `Router.build`, `Router.route`
for one row and `Router.routeAll` for all combinations of candidate values; `routeAll_of_empty`
and `targetsAt_subset_allTargets`.
-/

namespace ShardRouting

/-- One physical table: a shard, the name of the table that it belongs to, and a suffix. -/
structure Target where
  /-- The shard that holds it. -/
  shard : String
  /-- The logical table. -/
  object : String
  /-- What is appended to the name of the logical table. -/
  suffix : String
  deriving DecidableEq, Repr

namespace Target

/-- The name of the physical table within its shard. -/
def physicalName (t : Target) : String :=
  t.object ++ t.suffix

/-- The text of a target. -/
def text (t : Target) : String :=
  t.shard ++ "." ++ t.physicalName

end Target

/-- A part of a partition. -/
structure Part where
  /-- The shard. -/
  shard : String
  /-- The suffix of the tables in it. -/
  suffix : String
  deriving DecidableEq, Repr

/-- A router. -/
structure Router where
  /-- The name of the router. -/
  id : String
  /-- Its parts, in order. -/
  partition : List Part
  /-- How a part is chosen. -/
  rule : Rule

namespace Router

/-- The parts of one entry of settings; without suffixes it is one part with an empty one. -/
def partsOf (p : PartitionSettings) : List Part :=
  match p.suffixes with
  | [] => [⟨p.shard, ""⟩]
  | suffixes => suffixes.map fun suffix => ⟨p.shard, suffix⟩

/-- The router of settings, or the first fault in them. -/
def build (registry : Registry) (s : RouterSettings) : Except SettingsFault Router :=
  let parts := s.partition.flatMap partsOf
  match firstRepeated? parts with
  | some part => .error (.repeatedPart s.id part.shard part.suffix)
  | none =>
    if parts = [] then .error (.emptyPartition s.id)
    else
      match Rule.build registry s.rule with
      | .ok rule => .ok ⟨s.id, parts, rule⟩
      | .error fault => .error fault

/-- The physical table of a part. -/
def targetOf (table : String) (part : Part) : Target :=
  ⟨part.shard, table, part.suffix⟩

/-- All physical tables of a logical table, in the order of the partition. -/
def allTargets (r : Router) (table : String) : List Target :=
  r.partition.map (targetOf table)

/-- Whether a key chooses a part at a position. -/
def chooses (key : Key) (position : Nat) (part : Part) : Bool :=
  match key with
  | .index i => i.toInt == position
  | .name s => part.suffix == s || part.shard == s

/-- The positions of the parts that a key chooses, in ascending order. -/
def chosen (r : Router) (key : Key) : List Nat :=
  (r.partition.zipIdx.filter fun (part, position) => chooses key position part).map Prod.snd

/-- The positions that a row goes to, without regard to missing values. -/
def positionsOf (r : Router) (row : Row) : Except RoutingFault (List Nat) :=
  match r.rule.key r.partition.length row with
  | .error reason => .error (.noKey r.id reason)
  | .ok key =>
    match r.chosen key with
    | [] => .error (.noTarget r.id key)
    | positions => .ok positions

/-- The first column that needs a value and has none in a row. -/
def missingColumn? (r : Router) (row : Row) : Option RuleColumn :=
  r.rule.requiredColumns.find? fun c => ((row.get? c.name).getD .null).isNull

/-- The positions that a row of a table goes to. -/
def positions (r : Router) (table : String) (row : Row) : Except RoutingFault (List Nat) :=
  match r.missingColumn? row with
  | some c => .error (.columnMissing table c.name)
  | none => r.positionsOf row

/-- The physical tables at positions of the partition that satisfy a test, in order. -/
def targetsAt (r : Router) (table : String) (p : Nat → Bool) : List Target :=
  (r.partition.zipIdx.filter fun entry => p entry.2).map fun entry => targetOf table entry.1

/-- The physical tables that a row of a table goes to. -/
def route (r : Router) (table : String) (row : Row) : Except RoutingFault (List Target) := do
  let positions ← r.positions table row
  .ok (r.targetsAt table positions.contains)

/-- All ways to take one value for each name, the values of earlier names changing last. -/
def combinations : List (String × List Value) → List (List (String × Value))
  | [] => [[]]
  | (name, values) :: rest =>
    values.flatMap fun v => (combinations rest).map fun row => (name, v) :: row

/-- The row of a list of bindings; of two for one column the later counts. -/
def rowOf (bindings : List (String × Value)) : Row :=
  bindings.foldl (fun row (column, v) => Row.insert row column v) []

/-- The positions of several rows one behind the other, or the fault of the first that has one. -/
def positionsOfAll (r : Router) (table : String) : List Row → Except RoutingFault (List Nat)
  | [] => .ok []
  | row :: rows => do
    let first ← r.positions table row
    let more ← r.positionsOfAll table rows
    .ok (first ++ more)

/-- The positions for candidate values of columns; without candidates the rule is asked for the
empty row whatever values it needs. -/
def positionsOfCandidates (r : Router) (table : String)
    (candidates : List (String × List Value)) : Except RoutingFault (List Nat) :=
  match candidates with
  | [] => r.positionsOf []
  | candidates =>
    let named := candidates.map fun (column, values) => (Identifier.normalize column, values)
    r.positionsOfAll table ((combinations named).map rowOf)

/-- The physical tables of all combinations of candidate values, each once, in the order of the
partition; a column without candidates leaves none. -/
def routeAll (r : Router) (table : String) (candidates : List (String × List Value)) :
    Except RoutingFault (List Target) :=
  if candidates.any fun c => c.2.isEmpty then .ok []
  else do
    let positions ← r.positionsOfCandidates table candidates
    .ok (r.targetsAt table positions.contains)

/-- A column without candidates leaves no target. -/
theorem routeAll_of_empty {r : Router} {table column : String}
    {candidates : List (String × List Value)} (h : (column, []) ∈ candidates) :
    r.routeAll table candidates = .ok [] := by
  have : candidates.any (fun c => c.2.isEmpty) = true :=
    List.any_eq_true.2 ⟨_, h, rfl⟩
  rw [routeAll, if_pos this]

/-- Every chosen target is one of the table's targets. -/
theorem targetsAt_subset_allTargets {r : Router} {table : String} {p : Nat → Bool} {t : Target}
    (h : t ∈ r.targetsAt table p) : t ∈ r.allTargets table := by
  obtain ⟨entry, hentry, rfl⟩ := List.mem_map.1 h
  exact List.mem_map.2 ⟨entry.1, (List.mem_zipIdx' (List.mem_filter.1 hentry).1).2 ▸
    List.getElem_mem _, rfl⟩

end Router

end ShardRouting
