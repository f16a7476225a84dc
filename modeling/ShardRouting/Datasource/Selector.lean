import ShardRouting.Balance.Balancer
import ShardRouting.Failure
import ShardRouting.Settings
import ShardRouting.Text.Sorted

/-!
# Selectors

A selector chooses a datasource of one shard for a read or a write, among the members that are not
abnormal. What it does depends on the make-up of the shard: a single member serves everything, a
single writable member takes all writes, and otherwise both roles are balanced. Main content:
`Selector.build`, `Selector.select`, `Selector.selectExcept`, `Selector.demote`, `Selector.wake`.
-/

namespace ShardRouting

/-- The make-up of a shard. -/
inductive Topology where
  /-- A single member. -/
  | standalone
  /-- Several members, one of which takes writes. -/
  | oneMaster
  /-- Several members that take writes. -/
  | multiMaster
  deriving DecidableEq, Repr

/-- The choice among the members of a shard. -/
structure Selector where
  /-- The shard. -/
  shard : String
  /-- Its members, in order of preference. -/
  members : List MemberSettings
  /-- Its make-up. -/
  topology : Topology
  /-- How reads are spread. -/
  readKind : BalanceKind
  /-- How writes are spread. -/
  writeKind : BalanceKind
  /-- How many ring points a unit of weight has. -/
  replicas : Nat
  /-- The members that are out of use, in order of their names. -/
  abnormal : List String
  /-- The balancer of reads. -/
  readable : Balancer
  /-- The balancer of writes. -/
  writable : Balancer

namespace Selector

/-- The endpoints of the members that are in use, with the weights of one role. -/
def endpoints (shard : String) (members : List MemberSettings) (abnormal : List String)
    (weight : MemberSettings → Int64) : List Endpoint :=
  (members.filter fun m => !abnormal.contains m.uid).map fun m => ⟨m.uid, shard, weight m, "", "",
    "", ""⟩

/-- The selector with other members out of use: both balancers are built anew. -/
def withAbnormal (s : Selector) (abnormal : List String) : Selector :=
  { s with
    abnormal
    readable := Balancer.build s.readKind s.replicas
      (endpoints s.shard s.members abnormal MemberSettings.readWeight)
    writable := Balancer.build s.writeKind s.replicas
      (endpoints s.shard s.members abnormal MemberSettings.writeWeight) }

/-- The make-up of a shard and how its reads and writes are spread, or nothing where no member takes
writes. -/
def plan? (members : List MemberSettings) (balance : Option BalanceKind) :
    Option (Topology × BalanceKind × BalanceKind) :=
  match (members.filter fun m => 0 < m.writeWeight).length with
  | 0 => none
  | writable =>
    if members.length = 1 then some (.standalone, .random, .random)
    else if writable = 1 then some (.oneMaster, balance.getD .random, .random)
    else
      let kind := balance.getD .hashRing
      some (.multiMaster, kind, kind)

/-- The selector of a shard, or the fault in its settings. -/
def build (shard : String) (members : List MemberSettings) (balance : Option BalanceKind)
    (replicas : Option Nat) : Except SettingsFault Selector :=
  match plan? members balance with
  | none => .error (.noWritable shard)
  | some (topology, readKind, writeKind) =>
    let replicas := replicas.getD HashRing.defaultReplicas
    let blank : Selector :=
      { shard, members, topology, readKind, writeKind, replicas, abnormal := []
        readable := Balancer.empty replicas readKind
        writable := Balancer.empty replicas writeKind }
    .ok (blank.withAbnormal [])

/-- Whether a name is that of a member in use. -/
def isActive (s : Selector) (uid : String) : Bool :=
  (s.members.any fun m => m.uid == uid) && !s.abnormal.contains uid

/-- The balancer of a role. -/
def balancer (s : Selector) (readOnly : Bool) : Balancer :=
  if readOnly then s.readable else s.writable

/-- The selector with another balancer for a role. -/
def withBalancer (s : Selector) (readOnly : Bool) (b : Balancer) : Selector :=
  if readOnly then { s with readable := b } else { s with writable := b }

/-- A member for a role by the balancer of that role, and the selector behind the selection. A
single member serves both roles. -/
def select (s : Selector) (readOnly : Bool) (draw : Nat) : Option String × Selector :=
  match s.topology with
  | .standalone =>
    ((s.members.head?.filter fun m => s.isActive m.uid).map MemberSettings.uid, s)
  | _ =>
    let (e, b) := (s.balancer readOnly).next draw
    (e.map Endpoint.name, s.withBalancer readOnly b)

/-- Whether a member serves a role. -/
def serves (s : Selector) (readOnly : Bool) (m : MemberSettings) : Bool :=
  s.topology = .standalone || 0 < (if readOnly then m.readWeight else m.writeWeight)

/-- The first member in use that serves a role and is not excluded, in order of preference. -/
def selectExcept (s : Selector) (readOnly : Bool) (excluded : List String) : Option String :=
  (s.members.find? fun m =>
    s.serves readOnly m && !excluded.contains m.uid && s.isActive m.uid).map MemberSettings.uid

/-- A member by its name, where it is in use. -/
def selectNamed (s : Selector) (uid : String) : Option String :=
  if s.isActive uid then some uid else none

/-- Takes a member out of use; says whether it was in use. -/
def demote (s : Selector) (uid : String) : Bool × Selector :=
  if s.isActive uid then (true, s.withAbnormal (Text.insertSorted uid s.abnormal))
  else (false, s)

/-- Takes a member back into use; says whether it was out of use. -/
def wake (s : Selector) (uid : String) : Bool × Selector :=
  if s.abnormal.contains uid then (true, s.withAbnormal (s.abnormal.erase uid)) else (false, s)

/-- The members that selections for a role can give. -/
def drawable (s : Selector) (readOnly : Bool) : List String :=
  match s.topology with
  | .standalone => (s.select readOnly 0).1.toList
  | _ => (s.balancer readOnly).drawable.map Endpoint.name

/-- Selections in a row for a role, and the selector behind them. -/
def selectMany (s : Selector) (readOnly : Bool) (draw : Nat) : Nat → List (Option String) × Selector
  | 0 => ([], s)
  | n + 1 =>
    let (uid, s) := s.select readOnly draw
    let (uids, s) := s.selectMany readOnly draw n
    (uid :: uids, s)

end Selector

end ShardRouting
