/-!
# Idle queues

The idle connections of one endpoint, the longest idle first, up to a capacity. Main statements:
`length_put_le` and `put_of_full`.
-/

namespace ShardRouting

/-- Idle connections with a bound on their number. -/
structure IdleQueue (C : Type) where
  /-- How many connections are kept at most. -/
  capacity : Nat
  /-- The connections, the longest idle first. -/
  idle : List C := []
  deriving Repr

namespace IdleQueue

variable {C : Type}

/-- The empty queue; it has room for one connection at least. -/
def empty (size : Nat) : IdleQueue C :=
  { capacity := max size 1 }

/-- The queue with a connection that has become idle; a full queue drops it. -/
def put (q : IdleQueue C) (c : C) : IdleQueue C :=
  if q.idle.length < q.capacity then { q with idle := q.idle ++ [c] } else q

/-- The connection that is idle longest, and the queue without it. -/
def take? (q : IdleQueue C) : Option (C × IdleQueue C) :=
  match q.idle with
  | [] => none
  | c :: idle => some (c, { q with idle })

/-- The queue without connections. -/
def clear (q : IdleQueue C) : IdleQueue C :=
  { q with idle := [] }

/-- A queue within its capacity stays so. -/
theorem length_put_le {q : IdleQueue C} {c : C} (h : q.idle.length ≤ q.capacity) :
    (q.put c).idle.length ≤ (q.put c).capacity := by
  unfold put
  split
  · next hlt => simpa using Nat.succ_le_of_lt hlt
  · exact h

/-- A full queue drops what is put into it. -/
theorem put_of_full {q : IdleQueue C} {c : C} (h : q.capacity ≤ q.idle.length) : q.put c = q := by
  rw [put, if_neg (Nat.not_lt.2 h)]

end IdleQueue

end ShardRouting
