import ShardRouting.Balance.Endpoint
import ShardRouting.Checksum

/-!
# Consistent hashing

Each endpoint has points on a ring of checksums, a fixed number for each unit of its weight, which
are counted in a machine word. A key belongs to the endpoint of the first point at or behind its own
checksum, round the end of the ring. A point at which several endpoints meet belongs to the last of
them. Main content: `pointsOf`, `locate`, `nextWithKey`.
-/

namespace ShardRouting

/-- Endpoints with their points on the ring. -/
structure HashRing where
  /-- The endpoints, in the order in which they joined. -/
  items : List Endpoint := []
  /-- How many points a unit of weight has; at least one. -/
  replicas : Nat
  /-- The points in ascending order, each with the position of the endpoint that owns it. -/
  points : List (UInt32 × Nat) := []
  deriving DecidableEq, Repr

namespace HashRing

/-- How many points a unit of weight has unless settings say otherwise. -/
def defaultReplicas : Nat := 16

/-- The ring without endpoints. -/
def empty (replicas : Nat) : HashRing :=
  { replicas := max replicas 1 }

/-- The checksum of a text. -/
def checksum (s : String) : UInt32 :=
  Checksum.crc32 s.toUTF8.data.toList

/-- How many points an endpoint has: its weight times the replicas, modulo the size of a word. -/
def pointCount (replicas : Nat) (weight : Int64) : UInt64 :=
  UInt64.ofNat replicas * weight.toUInt64

/-- The points of one endpoint, in the order in which they are numbered. -/
def ownPoints (replicas : Nat) (e : Endpoint) : List UInt32 :=
  (List.range (pointCount replicas e.weight).toNat).map fun i =>
    checksum (e.name ++ "#" ++ toString i)

/-- Points without those that another of the same place follows. -/
def lastOfEach : List (UInt32 × Nat) → List (UInt32 × Nat)
  | a :: b :: rest => if a.1 = b.1 then lastOfEach (b :: rest) else a :: lastOfEach (b :: rest)
  | points => points

/-- The points of endpoints in ascending order; of those at one place the last placed counts. -/
def pointsOf (replicas : Nat) (items : List Endpoint) : List (UInt32 × Nat) :=
  let placed := items.zipIdx.flatMap fun (e, i) =>
    (ownPoints replicas e).map fun point => (point, i)
  lastOfEach (placed.mergeSort fun a b => a.1 ≤ b.1)

/-- The ring over endpoints. -/
def rebuild (replicas : Nat) (items : List Endpoint) : HashRing :=
  ⟨items, replicas, pointsOf replicas items⟩

/-- The endpoint that owns a place: that of the first point at it or behind it, or of the first of
all where none is behind it. -/
def locate (r : HashRing) (place : UInt32) : Option Endpoint :=
  ((r.points.find? fun point => place ≤ point.1).or r.points.head?).bind fun point =>
    r.items[point.2]?

/-- The endpoint that owns the checksum of a key. -/
def nextWithKey (r : HashRing) (key : List UInt8) : Option Endpoint :=
  r.locate (Checksum.crc32 key)

/-- The endpoint that owns a drawn place. -/
def next (r : HashRing) (draw : Nat) : Option Endpoint :=
  r.locate (UInt32.ofNat draw)

/-- The ring with one more endpoint, where that may join. -/
def add (r : HashRing) (e : Endpoint) : HashRing :=
  if e.mayJoin r.items then rebuild r.replicas (r.items ++ [e]) else r

/-- The ring without an endpoint. -/
def remove (r : HashRing) (e : Endpoint) : HashRing :=
  if r.items.any fun x => x.isSame e then
    rebuild r.replicas (r.items.eraseP fun x => x.isSame e)
  else r

/-- The endpoints that own a place. -/
def drawable (r : HashRing) : List Endpoint :=
  r.items.zipIdx.filterMap fun (e, i) =>
    if r.points.any fun point => point.2 == i then some e else none

end HashRing

end ShardRouting
