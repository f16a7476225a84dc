import ShardRouting.Datasource.Selector
import ShardRouting.Distinct
import ShardRouting.Pool.IdleQueue

/-!
# Repositories

The datasources of all shards with their idle connections, the selectors of the shards, and the
reports of failures that wait for a health check. Main content: `Repository.build`,
`Repository.select`, `Repository.report`, `Repository.demote` and `Repository.wake`.
-/

namespace ShardRouting

/-- A datasource of a shard. -/
structure Datasource where
  /-- What is declared about it. -/
  settings : DatasourceSettings
  /-- The shard that it is a member of. -/
  shard : String
  /-- Its weights in the shard. -/
  member : MemberSettings
  /-- How many failures were reported since it last recovered. -/
  failures : Nat := 0
  /-- Its idle connections, by number. -/
  idle : IdleQueue Nat

namespace Datasource

/-- The name of a datasource. -/
def uid (d : Datasource) : String :=
  d.settings.uid

/-- A datasource as balancers of writes see it. -/
def endpoint (d : Datasource) : Endpoint :=
  { name := d.uid, shard := d.shard, weight := d.member.writeWeight, db := d.settings.db
    user := d.settings.user, password := d.settings.password, addr := d.settings.addr }

/-- Whether an error means that a connection to the datasource is of no more use. -/
def isFatal (d : Datasource) (e : SqlError) : Bool :=
  d.settings.dialect.isFatal e

end Datasource

/-- Which connection is asked for. -/
structure ConnectionRequest where
  /-- The shard. -/
  shard : String
  /-- The datasource, where the caller names it. -/
  named : Option String := none
  /-- Whether the connection is for reads only. -/
  readOnly : Bool := false
  /-- How many more datasources are tried after a failure. -/
  retry : Nat := 0
  deriving Repr

/-- The datasources and selectors of all shards. -/
structure Repository where
  /-- The datasources. -/
  datasources : List Datasource
  /-- The selectors, one for each shard. -/
  selectors : List Selector
  /-- The datasources with reported failures, the earliest report first. -/
  reports : List String := []

namespace Repository

/-- The datasources of the members of a shard behind those that are there already, or the first
fault. -/
def addMembers (declared : List DatasourceSettings) (shard : String) (built : List Datasource) :
    List MemberSettings → Except SettingsFault (List Datasource)
  | [] => .ok built
  | m :: members =>
    match declared.find? fun d => d.uid == m.uid with
    | none => .error (.unknownDatasource shard m.uid)
    | some settings =>
      if built.any fun d => d.uid == m.uid then .error (.sharedDatasource m.uid)
      else
        addMembers declared shard
          (built ++ [{ settings, shard, member := m, idle := IdleQueue.empty settings.poolSize }])
          members

/-- The repository with the shards of settings behind those that are there already, or the first
fault. -/
def addShards (declared : List DatasourceSettings) (r : Repository) :
    List ShardSettings → Except SettingsFault Repository
  | [] => .ok r
  | s :: shards => do
    let datasources ← addMembers declared s.name r.datasources s.members
    let selector ← Selector.build s.name s.members s.balance s.replicas
    if r.selectors.any fun t => t.shard == s.name then .error (.repeatedShard s.name)
    else addShards declared { r with datasources, selectors := r.selectors ++ [selector] } shards

/-- The repository of settings, or the first fault in them. -/
def build (s : Settings) : Except SettingsFault Repository :=
  match firstRepeated? (s.datasources.map DatasourceSettings.uid) with
  | some uid => .error (.repeatedDatasource uid)
  | none => addShards s.datasources ⟨[], [], []⟩ s.shards

/-- The selector of a shard. -/
def selector? (r : Repository) (shard : String) : Option Selector :=
  r.selectors.find? fun s => s.shard == shard

/-- The datasource of a name. -/
def datasource? (r : Repository) (uid : String) : Option Datasource :=
  r.datasources.find? fun d => d.uid == uid

/-- The selector of a shard that must be there. -/
def selector (r : Repository) (shard : String) : Except SettingsFault Selector :=
  match r.selector? shard with
  | some s => .ok s
  | none => .error (.noSuchShard shard)

/-- The repository with the selector of its shard replaced. -/
def setSelector (r : Repository) (s : Selector) : Repository :=
  { r with selectors := r.selectors.map fun t => if t.shard == s.shard then s else t }

/-- The repository with a datasource changed. -/
def mapDatasource (r : Repository) (uid : String) (f : Datasource → Datasource) : Repository :=
  { r with datasources := r.datasources.map fun d => if d.uid == uid then f d else d }

/-- The datasource that a request is served by first, and the repository behind the selection. -/
def select (r : Repository) (q : ConnectionRequest) (draw : Nat) :
    Except SettingsFault (Option String × Repository) := do
  let s ← r.selector q.shard
  match q.named with
  | some uid => .ok (s.selectNamed uid, r)
  | none =>
    let (uid, s) := s.select q.readOnly draw
    .ok (uid, r.setSelector s)

/-- The datasource that a request is served by when some are excluded. -/
def selectExcept (r : Repository) (q : ConnectionRequest) (excluded : List String) :
    Except SettingsFault (Option String) := do
  let s ← r.selector q.shard
  match q.named with
  | some uid => .ok (if excluded.contains uid then none else s.selectNamed uid)
  | none => .ok (s.selectExcept q.readOnly excluded)

/-- Counts a failure of a datasource and leaves a report of it; unknown names are passed over. -/
def report (r : Repository) (uid : String) : Repository :=
  match r.datasource? uid with
  | some _ =>
    { r.mapDatasource uid fun d => { d with failures := d.failures + 1 } with
      reports := r.reports ++ [uid] }
  | none => r

/-- Reports a failure of a datasource where its error is fatal. -/
def reportIfFatal (r : Repository) (uid : String) (e : SqlError) : Repository :=
  if (r.datasource? uid).any fun d => d.isFatal e then r.report uid else r

/-- Takes a datasource out of use, with its idle connections; says whether it was in use. -/
def demote (r : Repository) (uid : String) : Bool × Repository :=
  match r.datasource? uid with
  | none => (false, r)
  | some d =>
    let r := r.mapDatasource uid fun d => { d with idle := d.idle.clear }
    match r.selector? d.shard with
    | none => (false, r)
    | some s =>
      let (changed, s) := s.demote uid
      (changed, r.setSelector s)

/-- Takes a datasource back into use and forgets its failures; says whether it was out of use. -/
def wake (r : Repository) (uid : String) : Bool × Repository :=
  match r.datasource? uid with
  | none => (false, r)
  | some d =>
    let r := r.mapDatasource uid fun d => { d with failures := 0 }
    match r.selector? d.shard with
    | none => (false, r)
    | some s =>
      let (changed, s) := s.wake uid
      (changed, r.setSelector s)

/-- The connection that is idle longest at a datasource, and the repository without it. -/
def takeIdle? (r : Repository) (uid : String) : Option (Nat × Repository) :=
  ((r.datasource? uid).bind fun d => d.idle.take?).map fun (number, idle) =>
    (number, r.mapDatasource uid fun d => { d with idle })

/-- Gives an idle connection back to its datasource. -/
def giveBack (r : Repository) (uid : String) (number : Nat) : Repository :=
  r.mapDatasource uid fun d => { d with idle := d.idle.put number }

/-- The names of the shards, in ascending order. -/
def shardNames (r : Repository) : List String :=
  Text.sortedSet (r.selectors.map Selector.shard)

/-- The members that are out of use, by shard in ascending order. -/
def abnormal (r : Repository) : List String :=
  r.shardNames.flatMap fun shard => ((r.selector? shard).map Selector.abnormal).getD []

end Repository

end ShardRouting
