import Mathlib
import ShardRouting.Pool.Basic
import ShardRouting.Proofs.Outcome

/-!
# Who has the connections of a pool

A connection of a pool is idle in the queue of one endpoint, or in the hands of one holder, or gone.
The endpoint that it was opened for is its home for good, whatever it is labelled with meanwhile: it
is idle there and lent for that endpoint only. Numbers are given in the order of opening, so that
what is gone does not come back under its number.

* `PoolUse.homes`: all places with connections, each with its home.
* `PoolUse.Moves`: what a step does to them; it takes some away, and opens one connection at most.
* `PoolUse.Sound`: no connection is in two places, and queues are within their bounds;
  `PoolUse.Sound.run` for one step.
* `PoolUse.Loses`: what a step takes away for good.
* `PoolUse.Sound.keepsOrder_run`: queues get connections at their ends only.
* `SharedPool`: a pool and its clones, which any of them may step; `SharedPool.Ownership`, with
  `SharedPool.ownership` for all their histories.
-/

namespace ShardRouting

/-! ### Lists by key -/

section Entries

variable {α β : Type} {l : List (String × α)} {k k' : String} {v : α} {f : α → α}

/-- The entries with those of one key changed. -/
def changeAt (k : String) (f : α → α) (l : List (String × α)) : List (String × α) :=
  l.map fun (k', v) => if k' == k then (k', f v) else (k', v)

theorem map_fst_changeAt (k : String) (f : α → α) (l : List (String × α)) :
    (changeAt k f l).map Prod.fst = l.map Prod.fst := by
  rw [changeAt, List.map_map]
  apply List.map_congr_left
  rintro ⟨k', v⟩ -
  show (if k' == k then (k', f v) else (k', v)).1 = k'
  split <;> rfl

/-- Entries of other keys are not touched. -/
theorem changeAt_of_not_mem (h : k ∉ l.map Prod.fst) : changeAt k f l = l := by
  refine (List.map_congr_left fun entry hentry => ?_).trans (List.map_id l)
  have hne : entry.1 ≠ k := fun heq => h (heq ▸ List.mem_map_of_mem hentry)
  exact if_neg (by simpa using hne)

theorem lookup_changeAt (k k' : String) (f : α → α) (l : List (String × α)) :
    (changeAt k f l).lookup k' = if k' = k then (l.lookup k').map f else l.lookup k' := by
  induction l with
  | nil => simp [changeAt]
  | cons entry l ih =>
    obtain ⟨e, v⟩ := entry
    unfold changeAt at ih ⊢
    rw [List.map_cons, List.lookup_cons]
    by_cases he : k' = e
    · subst he
      by_cases hk : k' = k <;> simp [hk]
    · by_cases hk : e = k
      · subst hk
        simpa [beq_false_of_ne he, List.lookup_cons, he] using ih
      · simpa [beq_false_of_ne he, List.lookup_cons, hk] using ih

theorem not_mem_keys_of_lookup (h : l.lookup k = none) : k ∉ l.map Prod.fst := by
  intro hmem
  obtain ⟨entry, hentry, rfl⟩ := List.mem_map.1 hmem
  simpa using List.lookup_eq_none_iff.1 h entry hentry

theorem mem_of_lookup (h : l.lookup k = some v) : (k, v) ∈ l := by
  obtain ⟨before, after, rfl, -⟩ := List.lookup_eq_some_iff.1 h
  exact List.mem_append_right _ List.mem_cons_self

/-- The entry of a key stands between the others, and a change of it leaves these alone. -/
theorem exists_split_of_lookup (hnodup : (l.map Prod.fst).Nodup) (h : l.lookup k = some v) :
    ∃ before after, l = before ++ (k, v) :: after ∧
      (∀ f, changeAt k f l = before ++ (k, f v) :: after) ∧
      (l.filter fun entry => entry.1 ≠ k) = before ++ after := by
  obtain ⟨before, after, rfl, hbefore⟩ := List.lookup_eq_some_iff.1 h
  rw [List.map_append, List.map_cons] at hnodup
  have hafter : k ∉ after.map Prod.fst := (List.nodup_cons.1 (List.nodup_append.1 hnodup).2.1).1
  have hbefore' : k ∉ before.map Prod.fst := by
    intro hmem
    obtain ⟨entry, hentry, rfl⟩ := List.mem_map.1 hmem
    simpa using hbefore entry hentry
  have hkept : ∀ l : List (String × α), k ∉ l.map Prod.fst →
      (l.filter fun entry => entry.1 ≠ k) = l := by
    intro l hl
    refine List.filter_eq_self.2 fun entry hentry => ?_
    have hne : entry.1 ≠ k := fun heq => hl (heq ▸ List.mem_map_of_mem hentry)
    simpa using hne
  refine ⟨before, after, rfl, fun f => ?_, ?_⟩
  · have hb := changeAt_of_not_mem (f := f) hbefore'
    have ha := changeAt_of_not_mem (f := f) hafter
    unfold changeAt at hb ha ⊢
    rw [List.map_append, List.map_cons, hb, ha]
    simp
  · rw [List.filter_append, List.filter_cons_of_neg (by simp), hkept before hbefore',
      hkept after hafter]

end Entries

/-! ### Queues -/

namespace Pool

variable {p : Pool} {size : Nat} {e e' : String} {q : IdleQueue Connection}
  {f : IdleQueue Connection → IdleQueue Connection}

/-- The idle connections of an endpoint, the longest idle first. -/
def idleAt (p : Pool) (e : String) : List Connection :=
  ((p.queue? e).map IdleQueue.idle).getD []

/-- The connections that are idle, each with the endpoint of its queue. -/
def homes (p : Pool) : List (Nat × String) :=
  p.queues.flatMap fun entry => entry.2.idle.map fun c => (c.number, entry.1)

theorem idleCount_eq (p : Pool) (e : String) : p.idleCount e = (p.idleAt e).length := by
  unfold idleCount idleAt
  cases p.queue? e <;> rfl

theorem idleAt_of_queue? (h : p.queue? e = some q) : p.idleAt e = q.idle := by
  rw [idleAt, h]
  rfl

/-- What is well formed about a pool of a size. -/
structure Sound (size : Nat) (p : Pool) : Prop where
  /-- It has that size. -/
  size_eq : p.size = size
  /-- An endpoint has one queue. -/
  endpoints : (p.queues.map Prod.fst).Nodup
  /-- No queue has more than its room, which is that of one connection at least. -/
  bounded : ∀ e q, p.queue? e = some q → q.capacity = max size 1 ∧ q.idle.length ≤ max size 1
  /-- Endpoints with a factory have a queue. -/
  queued : ∀ e f, p.factories.lookup e = some f → (p.queue? e).isSome

/-- The queues of the other endpoints are not touched by a change of one. -/
theorem queue?_mapQueue (p : Pool) (e e' : String)
    (f : IdleQueue Connection → IdleQueue Connection) : (p.mapQueue e f).queue? e' =
      if e' = e then (p.queue? e').map f else p.queue? e' :=
  lookup_changeAt e e' f p.queues

theorem isSome_queue?_mapQueue : ((p.mapQueue e f).queue? e').isSome = (p.queue? e').isSome := by
  rw [queue?_mapQueue]
  split
  · rw [Option.isSome_map]
  · rfl

theorem idleAt_mapQueue_of_ne (h : e' ≠ e) : (p.mapQueue e f).idleAt e' = p.idleAt e' := by
  rw [idleAt, queue?_mapQueue, if_neg h, idleAt]

theorem idleAt_mapQueue (h : p.queue? e = some q) : (p.mapQueue e f).idleAt e = (f q).idle := by
  rw [idleAt, queue?_mapQueue, if_pos rfl, h]
  rfl

/-- A change of the queue of an endpoint that has none changes nothing. -/
theorem mapQueue_of_none (h : p.queue? e = none) : p.mapQueue e f = p := by
  have hsame := changeAt_of_not_mem (f := f) (not_mem_keys_of_lookup h)
  obtain ⟨size, factories, queues⟩ := p
  exact congrArg (Pool.mk size factories) hsame

/-- A change of a queue within its bounds keeps a pool sound. -/
theorem Sound.mapQueue (h : p.Sound size)
    (hf : ∀ q, p.queue? e = some q → (f q).capacity = q.capacity ∧
      (q.idle.length ≤ q.capacity → (f q).idle.length ≤ q.capacity)) :
    (p.mapQueue e f).Sound size := by
  refine ⟨h.size_eq, ?_, fun e' q' hq' => ?_, fun e' g hg => ?_⟩
  · show (p.mapQueue e f).queues.map Prod.fst |>.Nodup
    have hkeys := map_fst_changeAt e f p.queues
    exact hkeys ▸ h.endpoints
  · rw [queue?_mapQueue] at hq'
    split at hq'
    · next heq =>
      obtain ⟨q, hq, rfl⟩ := Option.map_eq_some_iff.1 hq'
      obtain ⟨hcapacity, hlength⟩ := h.bounded e' q hq
      obtain ⟨hkept, hbound⟩ := hf q (heq ▸ hq)
      rw [hcapacity] at hkept hbound
      exact ⟨hkept, hbound hlength⟩
    · exact h.bounded e' q' hq'
  · rw [isSome_queue?_mapQueue]
    exact h.queued e' g hg

/-- The homes of the connections of one queue, and of all others. -/
theorem Sound.exists_homes (h : p.Sound size) (hq : p.queue? e = some q) :
    ∃ rest, p.homes.Perm ((q.idle.map fun c => (c.number, e)) ++ rest) ∧
      ∀ f, (p.mapQueue e f).homes.Perm (((f q).idle.map fun c => (c.number, e)) ++ rest) := by
  obtain ⟨before, after, hqueues, hchange, -⟩ := exists_split_of_lookup h.endpoints hq
  refine ⟨(before ++ after).flatMap fun entry => entry.2.idle.map fun c => (c.number, entry.1),
    ?_, fun f => ?_⟩
  · rw [homes, hqueues, List.flatMap_append, List.flatMap_append, List.flatMap_cons]
    exact List.perm_append_comm_assoc _ _ _
  · show ((changeAt e f p.queues).flatMap _).Perm _
    rw [hchange, List.flatMap_append, List.flatMap_append, List.flatMap_cons]
    exact List.perm_append_comm_assoc _ _ _

/-! ### What steps do to queues -/

/-- An endpoint with a factory has its queue, or a new one. -/
theorem queue?_setFactory (p : Pool) (e : String) (f : Factory) (e' : String) :
    (p.setFactory e f).queue? e' =
      if e' = e then some ((p.queue? e).getD (IdleQueue.empty p.size)) else p.queue? e' := by
  cases hq : p.queue? e with
  | some q =>
    have hqueues : (p.setFactory e f).queues = p.queues := by
      simp only [setFactory, hq, Option.isSome_some, if_true]
    rw [queue?, hqueues]
    split
    · next heq =>
      rw [heq]
      exact hq
    · rfl
  | none =>
    have hqueues : (p.setFactory e f).queues = p.queues ++ [(e, IdleQueue.empty p.size)] := by
      simp [setFactory, hq]
    rw [queue?, hqueues, List.lookup_append]
    by_cases heq : e' = e
    · have hlookup : p.queues.lookup e = none := hq
      simp [heq, hlookup]
    · have hlookup : List.lookup e' [(e, IdleQueue.empty (C := Connection) p.size)] = none := by
        rw [List.lookup_cons, beq_false_of_ne heq]
        rfl
      rw [hlookup, Option.or_none, if_neg heq, queue?]

/-- A factory comes with an empty queue at most. -/
theorem idleAt_setFactory (p : Pool) (e : String) (f : Factory) (e' : String) :
    (p.setFactory e f).idleAt e' = p.idleAt e' := by
  rw [idleAt, queue?_setFactory]
  split
  · next heq =>
    rw [heq, idleAt]
    cases p.queue? e <;> rfl
  · rfl

theorem homes_setFactory (p : Pool) (e : String) (f : Factory) :
    (p.setFactory e f).homes = p.homes := by
  by_cases hq : (p.queue? e).isSome
  · simp only [homes, setFactory, hq, if_true]
  · simp [homes, setFactory, hq, IdleQueue.empty]

theorem Sound.setFactory (h : p.Sound size) (e : String) (f : Factory) :
    (p.setFactory e f).Sound size := by
  refine ⟨h.size_eq, ?_, fun e' q' hq' => ?_, fun e' g hg => ?_⟩
  · cases hq : p.queue? e with
    | some q => simpa [Pool.setFactory, hq] using h.endpoints
    | none =>
      have hnot := not_mem_keys_of_lookup hq
      simpa [Pool.setFactory, hq, List.nodup_append] using ⟨h.endpoints, fun a b hb heq =>
        hnot (heq ▸ List.mem_map_of_mem hb)⟩
  · rw [queue?_setFactory] at hq'
    split at hq'
    · obtain rfl := Option.some.inj hq'
      cases hq : p.queue? e with
      | some q => exact h.bounded e q hq
      | none =>
        rw [← h.size_eq]
        exact ⟨rfl, Nat.zero_le _⟩
    · exact h.bounded e' q' hq'
  · rw [queue?_setFactory]
    split
    · rfl
    · next hne =>
      refine h.queued e' g ?_
      have hlookup : List.lookup e' ((e, f) :: p.factories) = some g := hg
      rwa [List.lookup_cons, beq_false_of_ne hne] at hlookup

/-- A connection is taken from an endpoint where any is idle. -/
theorem takeIdle?_cases (p : Pool) (e : String) :
    p.idleAt e = [] ∧ p.takeIdle? e = none ∨
      ∃ c rest p', p.idleAt e = c :: rest ∧ p.takeIdle? e = some (c, p') := by
  unfold idleAt Pool.takeIdle? IdleQueue.take?
  cases hq : p.queue? e with
  | none => exact Or.inl ⟨rfl, rfl⟩
  | some q =>
    cases hidle : q.idle with
    | nil => simp [hidle]
    | cons c rest => simp [hidle]

/-- What is taken from an endpoint was idle longest there. -/
theorem Sound.takeIdle? (h : p.Sound size) {c : Connection} {p' : Pool}
    (htake : p.takeIdle? e = some (c, p')) :
    p'.Sound size ∧ p'.factories = p.factories ∧ ((c.number, e) :: p'.homes).Perm p.homes ∧
      p.idleAt e = c :: p'.idleAt e ∧ (∀ e', e' ≠ e → p'.idleAt e' = p.idleAt e') ∧
      ∀ e', (p'.queue? e').isSome = (p.queue? e').isSome := by
  obtain ⟨⟨c', q'⟩, hbind, heq⟩ := Option.map_eq_some_iff.1 htake
  obtain ⟨rfl, rfl⟩ := Prod.mk.inj heq
  obtain ⟨q, hq, htake⟩ := Option.bind_eq_some_iff.1 hbind
  have hidle : q.idle = c' :: q'.idle ∧ q'.capacity = q.capacity := by
    unfold IdleQueue.take? at htake
    split at htake
    · cases htake
    · next hcons =>
      cases htake
      exact ⟨hcons, rfl⟩
  refine ⟨h.mapQueue fun q₁ hq₁ => ?_, rfl, ?_, ?_, fun e' he' => ?_, fun e' => ?_⟩
  · obtain rfl := Option.some.inj (hq₁.symm.trans hq)
    refine ⟨hidle.2, fun hle => ?_⟩
    rw [hidle.1, List.length_cons] at hle
    omega
  · obtain ⟨rest, hhomes, hchange⟩ := h.exists_homes hq
    refine ((hchange fun _ => q').cons _).trans ?_
    rw [hidle.1] at hhomes
    exact hhomes.symm
  · rw [idleAt_of_queue? hq, idleAt_mapQueue hq, hidle.1]
  · exact idleAt_mapQueue_of_ne he'
  · exact isSome_queue?_mapQueue

/-- A connection that is put back is the last of its queue, or gone. -/
theorem Sound.put (h : p.Sound size) (e : String) (c : Connection) :
    (p.mapQueue e fun q => q.put c).Sound size ∧
      (p.mapQueue e fun q => q.put c).homes.Subperm ((c.number, e) :: p.homes) ∧
      ∀ e', (p.mapQueue e fun q => q.put c).idleAt e' =
        if e' = e ∧ (p.queue? e).isSome ∧ p.idleCount e < max size 1
        then p.idleAt e' ++ [c] else p.idleAt e' := by
  refine ⟨h.mapQueue fun q hq => ⟨?_, fun hle => ?_⟩, ?_, fun e' => ?_⟩
  · unfold IdleQueue.put
    split <;> rfl
  · have hcapacity : (q.put c).capacity = q.capacity := by
      unfold IdleQueue.put
      split <;> rfl
    exact hcapacity ▸ IdleQueue.length_put_le hle
  · cases hq : p.queue? e with
    | none =>
      rw [mapQueue_of_none hq]
      exact List.Subperm.cons_right _ (List.Subperm.refl _)
    | some q =>
      obtain ⟨rest, hhomes, hchange⟩ := h.exists_homes hq
      refine (hchange _).subperm.trans ?_
      refine List.Subperm.trans ?_ (hhomes.cons (c.number, e)).symm.subperm
      unfold IdleQueue.put
      split
      · rw [List.map_append, List.append_assoc]
        exact List.perm_middle.subperm
      · exact List.Subperm.cons_right _ (List.Subperm.refl _)
  · by_cases he : e' = e
    · subst he
      rw [idleCount_eq]
      cases hq : p.queue? e' with
      | none => simp [mapQueue_of_none hq]
      | some q =>
        have hcapacity := (h.bounded e' q hq).1
        rw [idleAt_mapQueue hq, idleAt_of_queue? hq, IdleQueue.put, hcapacity]
        split
        · next hlt => rw [if_pos ⟨rfl, rfl, hlt⟩]
        · next hfull => rw [if_neg fun hroom => hfull hroom.2.2]
    · rw [idleAt_mapQueue_of_ne he, if_neg fun hroom => he hroom.1]

/-- A connection that is put back where there is no room is gone. -/
theorem Sound.put_of_full (h : p.Sound size) (hfull : max size 1 ≤ p.idleCount e)
    (c : Connection) : (p.mapQueue e fun q => q.put c).homes.Perm p.homes := by
  cases hq : p.queue? e with
  | none => rw [mapQueue_of_none hq]
  | some q =>
    obtain ⟨rest, hhomes, hchange⟩ := h.exists_homes hq
    rw [idleCount_eq, idleAt_of_queue? hq, ← (h.bounded e q hq).1] at hfull
    have hput := hchange fun q => q.put c
    rw [IdleQueue.put_of_full hfull] at hput
    exact hput.trans hhomes.symm

/-- What is thrown away at an endpoint is idle there no more, and all other connections stay where
they are. -/
theorem Sound.clear (h : p.Sound size) (e : String) :
    (p.mapQueue e IdleQueue.clear).Sound size ∧
      (((p.idleAt e).map fun c => (c.number, e)) ++
        (p.mapQueue e IdleQueue.clear).homes).Perm p.homes ∧
      ∀ e', (p.mapQueue e IdleQueue.clear).idleAt e' = if e' = e then [] else p.idleAt e' := by
  refine ⟨h.mapQueue fun q _ => ⟨rfl, fun _ => Nat.zero_le _⟩, ?_, fun e' => ?_⟩
  · cases hq : p.queue? e with
    | none =>
      rw [mapQueue_of_none hq, idleAt, hq]
      exact List.Perm.refl _
    | some q =>
      obtain ⟨rest, hhomes, hchange⟩ := h.exists_homes hq
      rw [idleAt_of_queue? hq]
      exact ((hchange IdleQueue.clear).append_left _).trans hhomes.symm
  · by_cases he : e' = e
    · subst he
      rw [if_pos rfl]
      cases hq : p.queue? e' with
      | none => rw [mapQueue_of_none hq, idleAt, hq, Option.map_none, Option.getD_none]
      | some q =>
        rw [idleAt_mapQueue hq]
        rfl
    · rw [idleAt_mapQueue_of_ne he, if_neg he]

end Pool

/-! ### Homes -/

namespace PoolUse

variable {u u' : PoolUse} {size : Nat} {e e' holder : String} {l : Lease} {c : Connection}
  {n : Nat} {x : PoolStep}

/-- The home of a connection in the hands of a holder. -/
def leaseHome (entry : String × Lease) : Nat × String :=
  (entry.2.connection.number, entry.2.endpoint)

/-- All places with connections, idle or lent: the number of each connection, and its home. -/
def homes (u : PoolUse) : List (Nat × String) :=
  u.pool.homes ++ u.leases.map leaseHome

/-- The numbers of the connections in all places. -/
def numbers (u : PoolUse) : List Nat :=
  u.homes.map Prod.fst

/-- A connection is idle at an endpoint. -/
def IsIdle (u : PoolUse) (e : String) (n : Nat) : Prop :=
  n ∈ (u.pool.idleAt e).map Connection.number

/-- What a step may do to the places: each that is there behind it was there before, but for that of
a connection that was opened. -/
inductive Moves (u u' : PoolUse) : Prop where
  /-- No connection is opened. -/
  | keeps (built : u'.built = u.built) (homes : u'.homes.Subperm u.homes)
  /-- One connection is opened, with the next number. -/
  | opens {e : String} (built : u'.built = u.built + 1)
      (homes : u'.homes.Subperm ((u.built + 1, e) :: u.homes))

/-- A pool with its leases is well formed. -/
structure Framed (size : Nat) (u : PoolUse) : Prop where
  /-- The pool is. -/
  pool : u.pool.Sound size
  /-- A holder has one lease. -/
  holders : (u.leases.map Prod.fst).Nodup
  /-- Connections are lent for endpoints that have queues. -/
  queued : ∀ entry ∈ u.leases, (u.pool.queue? entry.2.endpoint).isSome

/-- No connection is in two places, and none has a number that was not given. -/
structure Sound (size : Nat) (u : PoolUse) : Prop extends Framed size u where
  /-- Each connection is in one place. -/
  once : u.numbers.Nodup
  /-- Only numbers of connections that were opened are there. -/
  opened : ∀ n ∈ u.numbers, n ≤ u.built

theorem Moves.refl (u : PoolUse) : u.Moves u :=
  .keeps rfl (List.Subperm.refl _)

theorem Moves.built_le (h : u.Moves u') : u.built ≤ u'.built := by
  cases h with
  | keeps built _ => exact built.ge
  | opens built _ => omega

/-- What is there was there before with the same home, or was opened in between. -/
theorem Moves.stays (h : u.Moves u') {place : Nat × String} (hplace : place ∈ u'.homes) :
    place ∈ u.homes ∨ u.built < place.1 ∧ place.1 ≤ u'.built := by
  cases h with
  | keeps _ homes => exact Or.inl (homes.subset hplace)
  | opens built homes =>
    rcases List.mem_cons.1 (homes.subset hplace) with rfl | hplace
    · exact Or.inr ⟨Nat.lt_succ_self _, built.ge⟩
    · exact Or.inl hplace

theorem nodup_map_of_subperm {α β : Type} {f : α → β} {l l' : List α} (h : l.Subperm l')
    (hnodup : (l'.map f).Nodup) : (l.map f).Nodup := by
  obtain ⟨kept, hperm, hsub⟩ := h
  exact (hperm.map f).nodup_iff.1 ((hsub.map f).nodup hnodup)

/-- What is well formed behind a move of a sound pool is sound. -/
theorem Sound.of_moves (h : u.Sound size) (hframed : u'.Framed size) (hmoves : u.Moves u') :
    u'.Sound size := by
  refine ⟨hframed, ?_, fun n hn => ?_⟩
  · cases hmoves with
    | keeps _ homes => exact nodup_map_of_subperm homes h.once
    | opens _ homes =>
      refine nodup_map_of_subperm homes (List.nodup_cons.2 ⟨fun hmem => ?_, h.once⟩)
      have hle := h.opened _ hmem
      omega
  · obtain ⟨place, hplace, rfl⟩ := List.mem_map.1 hn
    rcases hmoves.stays hplace with hold | ⟨-, hnew⟩
    · exact (h.opened _ (List.mem_map_of_mem hold)).trans hmoves.built_le
    · exact hnew

/-! ### Taking connections -/

/-- A connection that is opened has the next number, and its endpoint has a factory. -/
theorem openConnection_eq_ok (h : u.openConnection e = .ok (c, u')) :
    (∃ f, u.pool.factories.lookup e = some f) ∧ c.number = u.built + 1 ∧
      u' = { u with built := u.built + 1 } := by
  obtain ⟨f, hf, h⟩ := bind_eq_ok_iff.1 h
  split at h
  · cases h
  · cases h
    unfold Pool.factory at hf
    split at hf
    · next hlookup => exact ⟨⟨_, hlookup⟩, rfl, rfl⟩
    · cases hf

/-- What taking a connection comes to: the one that is idle longest, or a new one where none is
idle. -/
inductive Acquires (u : PoolUse) (e : String) (c : Connection) : PoolUse → Prop where
  /-- The longest idle is taken. -/
  | idle {pool : Pool} (takes : u.pool.takeIdle? e = some (c, pool)) :
      Acquires u e c { u with pool }
  /-- None is idle, and one is opened. -/
  | opens {f : Factory} (none : u.pool.idleAt e = []) (factory : u.pool.factories.lookup e = some f)
      (number : c.number = u.built + 1) : Acquires u e c { u with built := u.built + 1 }

theorem acquires_of_acquire (h : u.acquire e = .ok (c, u')) : u.Acquires e c u' := by
  unfold acquire at h
  rcases u.pool.takeIdle?_cases e with ⟨hidle, htake⟩ | ⟨c', rest, pool, -, htake⟩
  · rw [htake] at h
    obtain ⟨⟨f, hf⟩, hnumber, rfl⟩ := openConnection_eq_ok h
    exact .opens hidle hf hnumber
  · rw [htake] at h
    cases h
    exact .idle htake

/-- Taking a connection leaves all others where they are. -/
theorem Framed.acquire (h : u.Framed size) (hacquires : u.Acquires e c u') :
    u'.Framed size ∧ (u'.pool.queue? e).isSome ∧ u'.leases = u.leases ∧
      (u'.built = u.built ∧ ((c.number, e) :: u'.homes).Perm u.homes ∨
        u'.built = u.built + 1 ∧ c.number = u.built + 1 ∧ u'.homes = u.homes) ∧
      ∀ e', (u'.pool.idleAt e').Sublist (u.pool.idleAt e') := by
  cases hacquires with
  | @idle pool takes =>
    obtain ⟨hpool, -, hhomes, hidle, hothers, hqueues⟩ := h.pool.takeIdle? takes
    refine ⟨⟨hpool, h.holders, fun entry hentry => ?_⟩, ?_, rfl, Or.inl ⟨rfl, ?_⟩, fun e' => ?_⟩
    · exact hqueues _ ▸ h.queued entry hentry
    · rw [hqueues]
      by_contra hnone
      rw [Pool.idleAt, Option.not_isSome_iff_eq_none.1 hnone] at hidle
      cases hidle
    · exact hhomes.append_right _
    · by_cases he : e' = e
      · rw [he, hidle]
        exact List.sublist_cons_self ..
      · exact (hothers e' he).symm ▸ List.Sublist.refl _
  | opens none factory number =>
    exact ⟨⟨h.pool, h.holders, h.queued⟩, h.pool.queued e _ factory, rfl,
      Or.inr ⟨rfl, number, rfl⟩, fun e' => List.Sublist.refl _⟩

/-! ### Ending leases -/

/-- The lease of a holder and all other places. -/
theorem Framed.perm_withoutLease (h : u.Framed size) (hl : u.lease? holder = some l) :
    ((l.connection.number, l.endpoint) :: (u.withoutLease holder).homes).Perm u.homes := by
  obtain ⟨before, after, hleases, -, hfilter⟩ := exists_split_of_lookup h.holders hl
  have hwithout : (u.withoutLease holder).homes =
      u.pool.homes ++ (before ++ after).map leaseHome := by
    rw [← hfilter]
    rfl
  rw [hwithout, homes, hleases, List.map_append, List.map_append, List.map_cons]
  refine List.Perm.trans List.perm_middle.symm (List.Perm.append_left _ ?_)
  exact List.perm_middle.symm

theorem Framed.withoutLease (h : u.Framed size) (holder : String) :
    (u.withoutLease holder).Framed size ∧ (u.withoutLease holder).homes.Subperm u.homes := by
  refine ⟨⟨h.pool, (List.filter_sublist.map _).nodup h.holders, fun entry hentry => ?_⟩, ?_⟩
  · exact h.queued entry (List.mem_filter.1 hentry).1
  · exact ((List.filter_sublist.map leaseHome).append_left _).subperm

/-- A lease ends: its connection is the last that is idle at its home, unless it is busy or there is
no room. -/
theorem Framed.release (h : u.Framed size) (holder : String) :
    (u.release holder).Framed size ∧ (u.release holder).homes.Subperm u.homes ∧
      (u.release holder).built = u.built ∧
      (u.release holder).leases = (u.withoutLease holder).leases := by
  unfold PoolUse.release
  split
  · next l hl =>
    obtain ⟨hframed, -⟩ := h.withoutLease holder
    have hperm := h.perm_withoutLease hl
    unfold Pool.giveBack
    split
    · exact ⟨hframed, (List.sublist_cons_self ..).subperm.trans hperm.subperm, rfl, rfl⟩
    · obtain ⟨hpool, hhomes, -⟩ := h.pool.put l.endpoint l.connection
      refine ⟨⟨hpool, hframed.holders, fun entry hentry => ?_⟩, ?_, rfl, rfl⟩
      · exact Pool.isSome_queue?_mapQueue.trans (hframed.queued entry hentry)
      · exact ((List.subperm_append_right _).2 hhomes).trans hperm.subperm
  · next hnone =>
    have hnot := not_mem_keys_of_lookup hnone
    refine ⟨h, List.Subperm.refl _, rfl, (List.filter_eq_self.2 fun entry hentry => ?_).symm⟩
    have hne : entry.1 ≠ holder := fun heq => hnot (heq ▸ List.mem_map_of_mem hentry)
    simpa using hne

/-- The queues behind the end of a lease. -/
theorem Framed.idleAt_release (h : u.Framed size) (hl : u.lease? holder = some l) (e : String) :
    (u.release holder).pool.idleAt e =
      if l.busy = false ∧ e = l.endpoint ∧ u.pool.idleCount l.endpoint < max size 1
      then u.pool.idleAt e ++ [l.connection] else u.pool.idleAt e := by
  have hqueue := h.queued _ (mem_of_lookup hl)
  obtain ⟨-, -, hidle⟩ := h.pool.put l.endpoint l.connection
  have hrelease : (u.release holder).pool = u.pool.giveBack l := by rw [PoolUse.release, hl]
  rw [hrelease, Pool.giveBack]
  cases hbusy : l.busy with
  | true => simp
  | false =>
    simp only [Bool.false_eq_true, if_false]
    rw [hidle e]
    simp [hqueue]

theorem release_of_none (hl : u.lease? holder = none) : u.release holder = u := by
  rw [PoolUse.release, hl]

/-- A change of a lease that keeps its connection and its endpoint changes no place. -/
theorem Framed.mapLease (h : u.Framed size) (holder : String) {f : Lease → Lease}
    (hf : ∀ l, (f l).connection.number = l.connection.number ∧ (f l).endpoint = l.endpoint) :
    (u.mapLease holder f).2.Framed size ∧ (u.mapLease holder f).2.homes = u.homes := by
  have hleases : (u.mapLease holder f).2.leases = changeAt holder f u.leases := rfl
  refine ⟨⟨h.pool, ?_, fun entry hentry => ?_⟩, ?_⟩
  · rw [hleases, map_fst_changeAt]
    exact h.holders
  · rw [hleases] at hentry
    obtain ⟨⟨k, l⟩, hl, rfl⟩ := List.mem_map.1 hentry
    have hqueue := h.queued (k, l) hl
    dsimp only
    split
    · exact (hf l).2 ▸ hqueue
    · exact hqueue
  · rw [homes, hleases, homes, changeAt, List.map_map]
    congr 1
    apply List.map_congr_left
    rintro ⟨k, l⟩ -
    show leaseHome (if k == holder then (k, f l) else (k, l)) = _
    split
    · rw [leaseHome, (hf l).1, (hf l).2, leaseHome]
    · rfl

/-! ### Steps -/

/-- A lease of a connection that was taken, in place of the one that its holder had before. -/
theorem Framed.get (h : u.Framed size) {u₁ : PoolUse} (hacquires : u.Acquires e c u₁) :
    Framed size { u₁.release holder with
        leases := (holder, ⟨c, e, false⟩) :: (u₁.release holder).leases } ∧
      u.Moves { u₁.release holder with
        leases := (holder, ⟨c, e, false⟩) :: (u₁.release holder).leases } := by
  obtain ⟨h₁, hqueue, -, hplaces, -⟩ := h.acquire hacquires
  obtain ⟨h₂, hhomes, hbuilt, hleases⟩ := h₁.release holder
  have hkept : ((u₁.release holder).pool.queue? e).isSome := by
    unfold PoolUse.release
    split
    · unfold Pool.giveBack
      split
      · exact hqueue
      · exact Pool.isSome_queue?_mapQueue.trans hqueue
    · exact hqueue
  refine ⟨⟨h₂.pool, List.nodup_cons.2 ⟨?_, h₂.holders⟩, List.forall_mem_cons.2 ⟨hkept, h₂.queued⟩⟩,
    ?_⟩
  · rw [hleases]
    intro hmem
    obtain ⟨entry, hentry, hholder⟩ := List.mem_map.1 hmem
    simpa [hholder] using (List.mem_filter.1 hentry).2
  · have hcons : ((u₁.release holder).pool.homes ++
        ((holder, ⟨c, e, false⟩) :: (u₁.release holder).leases).map leaseHome).Subperm
          ((c.number, e) :: u₁.homes) :=
      List.perm_middle.subperm.trans ((List.subperm_cons _).2 hhomes)
    rcases hplaces with ⟨hsame, hperm⟩ | ⟨hnext, hnumber, hsame⟩
    · exact .keeps (hbuilt.trans hsame) (hcons.trans hperm.subperm)
    · rw [hsame, hnumber] at hcons
      exact .opens (hbuilt.trans hnext) hcons

/-- A step keeps everything well formed, and moves connections as steps may. -/
theorem Framed.run (h : u.Framed size) (x : PoolStep) :
    (u.run x).2.Framed size ∧ u.Moves (u.run x).2 := by
  cases x with
  | setFactory e f =>
    refine ⟨⟨h.pool.setFactory e f, h.holders, fun entry hentry => ?_⟩,
      .keeps rfl (List.Perm.subperm ?_)⟩
    · show ((u.pool.setFactory e f).queue? entry.2.endpoint).isSome
      rw [Pool.queue?_setFactory]
      split
      · rfl
      · exact h.queued entry hentry
    · show (Pool.homes (u.pool.setFactory e f) ++ _).Perm _
      rw [Pool.homes_setFactory]
      exact List.Perm.refl _
  | get e holder =>
    simp only [PoolUse.run]
    split
    · exact ⟨h, Moves.refl u⟩
    · next hacquire => exact h.get (acquires_of_acquire hacquire)
  | build e =>
    simp only [PoolUse.run]
    split
    · exact ⟨h, Moves.refl u⟩
    · next hopen =>
      obtain ⟨-, -, rfl⟩ := openConnection_eq_ok hopen
      exact ⟨⟨h.pool, h.holders, h.queued⟩,
        .opens (e := e) rfl (List.Subperm.cons_right _ (List.Subperm.refl _))⟩
  | drop holder =>
    obtain ⟨hframed, hhomes, hbuilt, -⟩ := h.release holder
    exact ⟨hframed, .keeps hbuilt hhomes⟩
  | discard holder =>
    obtain ⟨hframed, hhomes⟩ := h.withoutLease holder
    exact ⟨hframed, .keeps rfl hhomes⟩
  | setBusy holder busy =>
    obtain ⟨hframed, hhomes⟩ := h.mapLease holder
      (f := fun l => { l with busy }) fun _ => ⟨rfl, rfl⟩
    exact ⟨hframed, .keeps rfl (hhomes ▸ List.Subperm.refl _)⟩
  | relabel holder label =>
    obtain ⟨hframed, hhomes⟩ := h.mapLease holder
      (f := fun l => { l with connection := { l.connection with label } }) fun _ => ⟨rfl, rfl⟩
    exact ⟨hframed, .keeps rfl (hhomes ▸ List.Subperm.refl _)⟩
  | clear e =>
    obtain ⟨hpool, hhomes, -⟩ := h.pool.clear e
    refine ⟨⟨hpool, h.holders, fun entry hentry => ?_⟩, .keeps rfl ?_⟩
    · exact Pool.isSome_queue?_mapQueue.trans (h.queued entry hentry)
    · have hall := hhomes.append_right (u.leases.map leaseHome)
      rw [List.append_assoc] at hall
      exact (List.sublist_append_right _ _).subperm.trans hall.subperm

theorem Sound.run (h : u.Sound size) (x : PoolStep) : (u.run x).2.Sound size :=
  h.of_moves (h.toFramed.run x).1 (h.toFramed.run x).2

/-! ### Places -/

/-- A connection is idle at an endpoint, or lent for it. -/
def At (u : PoolUse) (n : Nat) (e : String) : Prop :=
  (n, e) ∈ u.homes

/-- A connection has one home. -/
theorem Sound.home_unique (h : u.Sound size) (hn : u.At n e) (hn' : u.At n e') : e' = e :=
  congrArg Prod.snd (List.inj_on_of_nodup_map h.once hn' hn rfl)

theorem at_of_lease? (hl : u.lease? holder = some l) : u.At l.connection.number l.endpoint :=
  List.mem_append_right _ (List.mem_map.2 ⟨_, mem_of_lookup hl, rfl⟩)

theorem mem_homes_of_mem_idleAt (hc : c ∈ u.pool.idleAt e) : (c.number, e) ∈ u.pool.homes := by
  unfold Pool.idleAt at hc
  cases hq : u.pool.queue? e with
  | none =>
    rw [hq] at hc
    cases hc
  | some q =>
    rw [hq] at hc
    exact List.mem_flatMap.2 ⟨(e, q), mem_of_lookup hq, List.mem_map.2 ⟨c, hc, rfl⟩⟩

/-- What is lent is not idle. -/
theorem Sound.not_isIdle_of_lease? (h : u.Sound size) (hl : u.lease? holder = some l) :
    ¬ u.IsIdle e l.connection.number := by
  intro hidle
  obtain ⟨c, hc, hnumber⟩ := List.mem_map.1 hidle
  have hpool : l.connection.number ∈ u.pool.homes.map Prod.fst :=
    hnumber ▸ List.mem_map_of_mem (mem_homes_of_mem_idleAt hc)
  have hlease : l.connection.number ∈ (u.leases.map leaseHome).map Prod.fst :=
    List.mem_map_of_mem (List.mem_map_of_mem (mem_of_lookup hl))
  have honce := h.once
  rw [numbers, homes, List.map_append] at honce
  exact (List.nodup_append.1 honce).2.2 _ hpool _ hlease rfl

/-! ### What is lost -/

/-- The end of a lease is the end of its connection: it is busy, or its home has no room for it. -/
def Ends (size : Nat) (u : PoolUse) (l : Lease) : Prop :=
  l.busy = true ∨ max size 1 ≤ u.pool.idleCount l.endpoint

/-- A step loses a connection: it is discarded, dropped while busy or without room, replaced so,
cleared, or opened to be thrown away. -/
inductive Loses (size : Nat) (u : PoolUse) : PoolStep → Nat → Prop where
  /-- It is discarded. -/
  | discarded {holder : String} {l : Lease} (lease : u.lease? holder = some l) :
      Loses size u (.discard holder) l.connection.number
  /-- It is dropped. -/
  | dropped {holder : String} {l : Lease} (lease : u.lease? holder = some l)
      (ends : u.Ends size l) : Loses size u (.drop holder) l.connection.number
  /-- Its holder has taken another in its place. -/
  | replaced {e holder : String} {l : Lease} {c : Connection} {u₁ : PoolUse}
      (lease : u.lease? holder = some l) (acquire : u.acquire e = .ok (c, u₁))
      (ends : u₁.Ends size l) : Loses size u (.get e holder) l.connection.number
  /-- It is idle at an endpoint that is cleared. -/
  | cleared {e : String} {n : Nat} (idle : u.IsIdle e n) : Loses size u (.clear e) n
  /-- It is opened to be thrown away. -/
  | thrown {e : String} {c : Connection} {u₁ : PoolUse}
      (opens : u.openConnection e = .ok (c, u₁)) : Loses size u (.build e) c.number

/-- A connection behind the end of whose lease there is nothing more of it. -/
theorem Framed.not_mem_withoutLease (h : u.Framed size) (honce : u.numbers.Nodup)
    (hl : u.lease? holder = some l) : l.connection.number ∉ (u.withoutLease holder).numbers := by
  have hnodup := ((h.perm_withoutLease hl).map Prod.fst).nodup_iff.2 honce
  exact (List.nodup_cons.1 hnodup).1

/-- Nor is there where the end of the lease is that of the connection. -/
theorem Framed.not_mem_release (h : u.Framed size) (honce : u.numbers.Nodup)
    (hl : u.lease? holder = some l) (hends : u.Ends size l) :
    l.connection.number ∉ (u.release holder).numbers := by
  have hrelease : (u.release holder).homes.Subperm (u.withoutLease holder).homes := by
    rw [PoolUse.release, hl]
    simp only [Pool.giveBack]
    split
    · exact List.Subperm.refl _
    · next hidle =>
      have hfull := hends.resolve_left hidle
      exact ((h.pool.put_of_full hfull l.connection).append_right _).subperm
  intro hmem
  obtain ⟨place, hplace, hn⟩ := List.mem_map.1 hmem
  exact h.not_mem_withoutLease honce hl (hn ▸ List.mem_map_of_mem (hrelease.subset hplace))

/-- What a step loses is in no place behind it. -/
theorem Loses.not_mem_numbers (hloses : u.Loses size x n) (h : u.Sound size) :
    n ∉ (u.run x).2.numbers := by
  cases hloses with
  | discarded lease => exact h.not_mem_withoutLease h.once lease
  | dropped lease ends => exact h.not_mem_release h.once lease ends
  | @replaced e holder l c u₁ lease acquire ends =>
    obtain ⟨h₁, -, hleases, hplaces, -⟩ := h.acquire (acquires_of_acquire acquire)
    have lease₁ : u₁.lease? holder = some l := by rw [lease?, hleases, ← lease?, lease]
    have hnumber₁ : l.connection.number ∈ u₁.numbers := List.mem_map_of_mem (at_of_lease? lease₁)
    -- what was taken is in no place of those that are left, so that it is not what is lost
    have hleft : u₁.numbers.Nodup ∧ c.number ∉ u₁.numbers := by
      rcases hplaces with ⟨-, hperm⟩ | ⟨-, hnumber, hsame⟩
      · have hnodup := List.nodup_cons.1 ((hperm.map Prod.fst).nodup_iff.2 h.once)
        exact ⟨hnodup.2, hnodup.1⟩
      · have hnumbers : u₁.numbers = u.numbers := congrArg (List.map Prod.fst) hsame
        rw [hnumbers, hnumber]
        refine ⟨h.once, fun hmem => ?_⟩
        have hle := h.opened _ hmem
        omega
    have hlost := h₁.not_mem_release hleft.1 lease₁ ends
    have hbehind : (((u₁.release holder).pool.homes ++
        ((holder, ⟨c, e, false⟩) :: (u₁.release holder).leases).map leaseHome).map Prod.fst).Perm
          (c.number :: (u₁.release holder).numbers) := List.perm_middle.map Prod.fst
    simp only [run, acquire]
    intro hmem
    rcases List.mem_cons.1 (hbehind.mem_iff.1 hmem) with heq | hmem
    · exact hleft.2 (heq ▸ hnumber₁)
    · exact hlost hmem
  | @cleared e n idle =>
    have hhomes := (h.pool.clear e).2.1.append_right (u.leases.map leaseHome)
    rw [List.append_assoc] at hhomes
    have hnodup := (hhomes.map Prod.fst).nodup_iff.2 h.once
    rw [List.map_append, List.map_map] at hnodup
    intro hmem
    exact (List.nodup_append.1 hnodup).2.2 _ idle _ hmem rfl
  | @thrown e c u₁ opens =>
    obtain ⟨-, hnumber, rfl⟩ := openConnection_eq_ok opens
    simp only [run, opens]
    intro hmem
    have hle := h.opened _ hmem
    omega

/-- What a step loses was opened. -/
theorem Loses.le_built (hloses : u.Loses size x n) (h : u.Sound size) : n ≤ (u.run x).2.built := by
  have hbuilt := (h.toFramed.run x).2.built_le
  cases hloses with
  | discarded lease | dropped lease | replaced lease =>
    exact (h.opened _ (List.mem_map_of_mem (at_of_lease? lease))).trans hbuilt
  | cleared idle =>
    obtain ⟨c, hc, rfl⟩ := List.mem_map.1 idle
    have hplace := List.mem_append_left (u.leases.map leaseHome) (mem_homes_of_mem_idleAt hc)
    exact (h.opened _ (List.mem_map_of_mem hplace)).trans hbuilt
  | thrown opens =>
    obtain ⟨-, hnumber, rfl⟩ := openConnection_eq_ok opens
    rw [run, opens]
    exact hnumber.le

/-! ### The order of queues -/

/-- A queue keeps its order: it has some of the connections that it had before, as they stood, and
then others. -/
def KeepsOrder (u u' : PoolUse) (e : String) : Prop :=
  ∃ new, ((u'.pool.idleAt e).map Connection.number).Sublist
    ((u.pool.idleAt e).map Connection.number ++ new) ∧ ∀ n ∈ new, ¬ u.IsIdle e n

theorem keepsOrder_of_sublist (h : (u'.pool.idleAt e).Sublist (u.pool.idleAt e)) :
    u.KeepsOrder u' e :=
  ⟨[], (List.append_nil _).symm ▸ h.map _, nofun⟩

/-- A lease that ends brings a connection that was not idle to the end of a queue. -/
theorem Sound.keepsOrder_release (h : u.Sound size) {u₁ : PoolUse} (h₁ : u₁.Framed size)
    (hleases : u₁.leases = u.leases) (hsub : (u₁.pool.idleAt e).Sublist (u.pool.idleAt e))
    (holder : String) : u.KeepsOrder (u₁.release holder) e := by
  cases hl : u₁.lease? holder with
  | none =>
    rw [release_of_none hl]
    exact keepsOrder_of_sublist hsub
  | some l =>
    have lease : u.lease? holder = some l := by rw [lease?, ← hleases, ← lease?, hl]
    unfold KeepsOrder
    rw [h₁.idleAt_release hl]
    split
    · refine ⟨[l.connection.number], ?_, fun n hn => ?_⟩
      · rw [List.map_append]
        exact (hsub.map _).append_right _
      · exact List.mem_singleton.1 hn ▸ h.not_isIdle_of_lease? lease
    · exact ⟨[], (List.append_nil _).symm ▸ hsub.map _, nofun⟩

/-- Queues keep their orders through a step. -/
theorem Sound.keepsOrder_run (h : u.Sound size) (x : PoolStep) (e : String) :
    u.KeepsOrder (u.run x).2 e := by
  cases x with
  | setFactory e' f =>
    exact keepsOrder_of_sublist (u.pool.idleAt_setFactory e' f e ▸ List.Sublist.refl _)
  | get e' holder =>
    simp only [PoolUse.run]
    split
    · exact keepsOrder_of_sublist (List.Sublist.refl _)
    · next c u₁ hacquire =>
      obtain ⟨h₁, -, hleases, -, hsub⟩ := h.acquire (acquires_of_acquire hacquire)
      exact h.keepsOrder_release h₁ hleases (hsub e) holder
  | build e' =>
    simp only [PoolUse.run]
    split
    · exact keepsOrder_of_sublist (List.Sublist.refl _)
    · next hopen =>
      obtain ⟨-, -, rfl⟩ := openConnection_eq_ok hopen
      exact keepsOrder_of_sublist (List.Sublist.refl _)
  | drop holder => exact h.keepsOrder_release h.toFramed rfl (List.Sublist.refl _) holder
  | discard | setBusy | relabel => exact keepsOrder_of_sublist (List.Sublist.refl _)
  | clear e' =>
    apply keepsOrder_of_sublist
    show (Pool.idleAt (u.pool.mapQueue e' IdleQueue.clear) e).Sublist _
    rw [(h.pool.clear e').2.2 e]
    split
    · exact List.nil_sublist _
    · exact List.Sublist.refl _

/-- Of two connections that are idle behind a step, the one in front was in front before, if the
other was idle before. -/
theorem Sound.in_front_before (h : u.Sound size) {m : Nat}
    (hfront : [m, n].Sublist (((u.run x).2.pool.idleAt e).map Connection.number))
    (hidle : u.IsIdle e n) : [m, n].Sublist ((u.pool.idleAt e).map Connection.number) := by
  obtain ⟨new, hsub, hnew⟩ := h.keepsOrder_run x e
  obtain ⟨old, fresh, hsplit, hold, hfresh⟩ := List.sublist_append_iff.1 (hfront.trans hsub)
  have hnot : n ∉ fresh := fun hmem => hnew n (hfresh.subset hmem) hidle
  have hnil : fresh = [] := by
    by_contra hne
    apply hnot
    have hlast : (old ++ fresh).getLast (by simp [hne]) = n := by simp [← hsplit]
    rw [List.getLast_append_of_ne_nil _ hne] at hlast
    exact hlast ▸ List.getLast_mem hne
  rw [hnil, List.append_nil] at hsplit
  exact hsplit ▸ hold

/-! ### Answers -/

/-- Where connections are idle, the one that is longest is lent, and none is opened. -/
theorem Framed.run_get_of_idle (h : u.Framed size) {rest : List Connection}
    (hidle : u.pool.idleAt e = c :: rest) (holder : String) :
    ∃ u', u.run (.get e holder) = (.got c, u') ∧ u'.built = u.built ∧
      u'.lease? holder = some ⟨c, e, false⟩ := by
  obtain ⟨pool, htake⟩ : ∃ pool, u.pool.takeIdle? e = some (c, pool) := by
    rcases u.pool.takeIdle?_cases e with ⟨hnil, -⟩ | ⟨c', rest', pool, hcons, htake⟩
    · rw [hidle] at hnil
      cases hnil
    · rw [hidle] at hcons
      obtain ⟨rfl, -⟩ := List.cons.inj hcons
      exact ⟨pool, htake⟩
  have hacquire : u.acquire e = .ok (c, { u with pool }) := by
    rw [PoolUse.acquire, htake]
  have hframed := (h.acquire (.idle htake)).1
  simp only [PoolUse.run, hacquire]
  exact ⟨_, rfl, (hframed.release holder).2.2.1, List.lookup_cons_self⟩

/-- Where no connection is idle, the one that is lent is new. -/
theorem Framed.run_get_of_none (h : u.Framed size) (hidle : u.pool.idleAt e = [])
    (hrun : u.run (.get e holder) = (.got c, u')) :
    c.number = u.built + 1 ∧ u'.built = u.built + 1 ∧
      u'.lease? holder = some ⟨c, e, false⟩ := by
  simp only [PoolUse.run] at hrun
  split at hrun
  · cases hrun
  · next c₁ u₁ hacquire =>
    obtain ⟨hgot, rfl⟩ := Prod.mk.inj hrun
    obtain rfl := PoolAnswer.got.inj hgot
    have hacquires := acquires_of_acquire hacquire
    have hbuilt := ((h.acquire hacquires).1.release holder).2.2.1
    cases hacquires with
    | idle takes =>
      have hcons := (h.pool.takeIdle? takes).2.2.2.1
      rw [hidle] at hcons
      cases hcons
    | opens _ _ number => exact ⟨number, hbuilt, List.lookup_cons_self⟩

/-- Where no connection is idle, one is lent if one can be opened. -/
theorem run_get_eq_build (hidle : u.pool.idleAt e = []) (holder : String) :
    (u.run (.get e holder)).1 = (u.run (.build e)).1 := by
  have htake : u.pool.takeIdle? e = none := by
    rcases u.pool.takeIdle?_cases e with ⟨-, htake⟩ | ⟨c, rest, pool, hcons, -⟩
    · exact htake
    · rw [hidle] at hcons
      cases hcons
  simp only [run, acquire, htake]
  cases u.openConnection e <;> rfl

/-- A step that fails leaves everything as it was. -/
theorem run_failed {f : PoolFault} (hrun : u.run x = (.failed f, u')) : u' = u := by
  cases x with
  | get | build =>
    simp only [run] at hrun
    split at hrun
    · exact (Prod.mk.inj hrun).2.symm
    · cases hrun
  | setFactory | drop | discard | setBusy | relabel | clear => cases hrun

end PoolUse

/-! ### Pools and their clones -/

/-- A pool and its clones: all of them share queues, factories and leases, and each carries a size
for the queues that it makes. -/
structure SharedPool where
  /-- What they share. -/
  use : PoolUse
  /-- The sizes that they carry. -/
  sizes : List Nat

namespace SharedPool

/-- Something that happens to a pool and its clones. -/
inductive Event where
  /-- One of them is cloned. -/
  | clone (i : Nat)
  /-- A step is taken through one of them. -/
  | act (i : Nat) (x : PoolStep)

/-- What an event answers, and what is left behind it. -/
def step (s : SharedPool) : Event → PoolAnswer × SharedPool
  | .clone i => (.done, { s with sizes := s.sizes ++ s.sizes[i]?.toList })
  | .act i x =>
    match s.sizes[i]? with
    | none => (.done, s)
    | some size =>
      let (answer, use) := ({ s.use with pool := { s.use.pool with size } } : PoolUse).run x
      (answer, { s with use })

/-- What is left behind a history. -/
def after (s : SharedPool) (events : List Event) : SharedPool :=
  events.foldl (fun s event => (s.step event).2) s

/-- A new pool of a size. -/
def start (size : Nat) : SharedPool :=
  ⟨{ pool := { size } }, [size]⟩

/-- What a pool of a size and its clones can come to. -/
def Reached (size : Nat) (s : SharedPool) : Prop :=
  ∃ events, (start size).after events = s

/-- A connection is idle at an endpoint before each event of a history, and behind the last. -/
def IdleThrough (s : SharedPool) (events : List Event) (e : String) (n : Nat) : Prop :=
  ∀ before, before <+: events → (s.after before).use.IsIdle e n

/-- What holds of a pool of a size and its clones. -/
structure Sound (size : Nat) (s : SharedPool) : Prop where
  /-- What they share is sound. -/
  use : s.use.Sound size
  /-- They carry the same size. -/
  sizes : ∀ z ∈ s.sizes, z = size

variable {s s' : SharedPool} {size : Nat} {event : Event} {i n : Nat} {x : PoolStep} {e : String}

theorem sound_start (size : Nat) : (start size).Sound size := by
  have hpool : (start size).use.pool.Sound size :=
    ⟨rfl, List.nodup_nil, nofun, nofun⟩
  exact ⟨⟨⟨hpool, List.nodup_nil, nofun⟩, List.nodup_nil, nofun⟩,
    fun z hz => List.mem_singleton.1 hz⟩

/-- A step through any of them is a step of what they share. -/
theorem Sound.step_act (h : s.Sound size) (hi : i < s.sizes.length) (x : PoolStep) :
    s.step (.act i x) = ((s.use.run x).1, { s with use := (s.use.run x).2 }) := by
  have hsize : s.use.pool.size = s.sizes[i] :=
    h.use.pool.size_eq.trans (h.sizes _ (List.getElem_mem hi)).symm
  have huse : ({ s.use with pool := { s.use.pool with size := s.sizes[i] } } : PoolUse) =
      s.use := by rw [← hsize]
  rw [step, List.getElem?_eq_getElem hi]
  simp only [huse]

/-- An event is a step of what they share, or leaves it as it is. -/
theorem Sound.step_cases (h : s.Sound size) (event : Event) :
    (∃ x, (s.step event).2.use = (s.use.run x).2 ∧ (s.step event).2.sizes = s.sizes) ∨
      (s.step event).2.use = s.use ∧ ∀ z ∈ (s.step event).2.sizes, z ∈ s.sizes := by
  cases event with
  | clone i =>
    refine Or.inr ⟨rfl, fun z hz => ?_⟩
    rcases List.mem_append.1 hz with hz | hz
    · exact hz
    · exact List.mem_of_getElem? (Option.mem_toList.1 hz)
  | act i x =>
    by_cases hi : i < s.sizes.length
    · rw [h.step_act hi]
      exact Or.inl ⟨x, rfl, rfl⟩
    · rw [step, List.getElem?_eq_none (Nat.le_of_not_lt hi)]
      exact Or.inr ⟨rfl, fun z hz => hz⟩

/-- An event keeps them sound, and moves connections as steps may. -/
theorem Sound.step (h : s.Sound size) (event : Event) :
    (s.step event).2.Sound size ∧ s.use.Moves (s.step event).2.use := by
  rcases h.step_cases event with ⟨x, huse, hsizes⟩ | ⟨huse, hsizes⟩
  · exact ⟨⟨huse ▸ h.use.run x, hsizes ▸ h.sizes⟩, huse ▸ (h.use.toFramed.run x).2⟩
  · exact ⟨⟨huse ▸ h.use, fun z hz => h.sizes z (hsizes z hz)⟩,
      huse ▸ PoolUse.Moves.refl s.use⟩

/-- Behind a history they are sound, and what is there was there before, with the same home, or was
opened in between. -/
theorem Sound.after (h : s.Sound size) (events : List Event) :
    (s.after events).Sound size ∧ s.use.built ≤ (s.after events).use.built ∧
      ∀ place ∈ (s.after events).use.homes, place ∈ s.use.homes ∨ s.use.built < place.1 := by
  induction events generalizing s with
  | nil => exact ⟨h, Nat.le_refl _, fun place hplace => Or.inl hplace⟩
  | cons event events ih =>
    obtain ⟨hsound, hmoves⟩ := h.step event
    obtain ⟨hafter, hbuilt, hplaces⟩ := ih hsound
    refine ⟨hafter, hmoves.built_le.trans hbuilt, fun place hplace => ?_⟩
    rcases hplaces place hplace with hold | hnew
    · exact (hmoves.stays hold).imp id And.left
    · exact Or.inr (Nat.lt_of_le_of_lt hmoves.built_le hnew)

theorem Reached.sound (h : s.Reached size) : s.Sound size := by
  obtain ⟨events, rfl⟩ := h
  exact ((sound_start size).after events).1

/-- A connection keeps its home. -/
theorem Sound.home_after (h : s.Sound size) (hn : s.use.At n e) (later : List Event) {e' : String}
    (hlater : (s.after later).use.At n e') : e' = e := by
  rcases (h.after later).2.2 _ hlater with hold | hnew
  · exact h.use.home_unique hn hold
  · have hle := h.use.opened n (List.mem_map_of_mem hn)
    omega

/-- What was opened and is in no place is in no place for good. -/
theorem Sound.gone_after (h : s.Sound size) (hn : n ≤ s.use.built) (hgone : n ∉ s.use.numbers)
    (later : List Event) : n ∉ (s.after later).use.numbers := by
  intro hmem
  obtain ⟨place, hplace, rfl⟩ := List.mem_map.1 hmem
  rcases (h.after later).2.2 place hplace with hold | hnew
  · exact hgone (List.mem_map_of_mem hold)
  · omega

/-- Of two connections that are idle at the end of a history, the one in front was in front all the
time, if the other was idle all the time. -/
theorem Sound.in_front_through (h : s.Sound size) {m : Nat} (events : List Event)
    (hfront : [m, n].Sublist (((s.after events).use.pool.idleAt e).map Connection.number))
    (hidle : s.IdleThrough events e n) :
    ∀ before, before <+: events →
      [m, n].Sublist (((s.after before).use.pool.idleAt e).map Connection.number) := by
  induction events generalizing s with
  | nil =>
    intro before hbefore
    rw [List.prefix_nil.1 hbefore]
    exact hfront
  | cons event events ih =>
    have hlater := ih (h.step event).1 hfront fun before hbefore =>
      hidle (event :: before) (List.cons_prefix_cons.2 ⟨rfl, hbefore⟩)
    intro before hbefore
    cases before with
    | nil =>
      have hnext := hlater [] List.nil_prefix
      have hnow := hidle [] List.nil_prefix
      show [m, n].Sublist ((s.use.pool.idleAt e).map Connection.number)
      have hnext' : [m, n].Sublist (((s.step event).2.use.pool.idleAt e).map Connection.number) :=
        hnext
      rcases h.step_cases event with ⟨x, huse, -⟩ | ⟨huse, -⟩
      · exact h.use.in_front_before (huse ▸ hnext') hnow
      · exact huse ▸ hnext'
    | cons event' before =>
      obtain ⟨rfl, hprefix⟩ := List.cons_prefix_cons.1 hbefore
      exact hlater before hprefix

/-- Who has the connections of a pool of a size and its clones. -/
structure Ownership (size : Nat) (s : SharedPool) : Prop where
  /-- Each connection is idle in one queue, or has one holder. -/
  once : s.use.numbers.Nodup
  /-- No queue has more connections than it has room for. -/
  bounded : ∀ e, s.use.pool.idleCount e ≤ max size 1
  /-- A connection is idle at the endpoint that it was taken for, and lent for it, all its life. -/
  home : ∀ n e, s.use.At n e → ∀ later e', (s.after later).use.At n e' → e' = e
  /-- A connection that is dropped goes to the end of the queue of its home, unless it is busy or
  there is no room, and to no other. -/
  dropped : ∀ i holder l, i < s.sizes.length → s.use.lease? holder = some l →
    ∀ e, (s.step (.act i (.drop holder))).2.use.pool.idleAt e =
      if l.busy = false ∧ e = l.endpoint ∧ s.use.pool.idleCount l.endpoint < max size 1
      then s.use.pool.idleAt e ++ [l.connection] else s.use.pool.idleAt e
  /-- What a step loses is nowhere behind it. -/
  lost : ∀ i x n, i < s.sizes.length → s.use.Loses size x n →
    ∀ later, n ∉ ((s.step (.act i x)).2.after later).use.numbers
  /-- What was opened and is nowhere is nowhere for good. -/
  gone : ∀ n, n ≤ s.use.built → n ∉ s.use.numbers → ∀ later, n ∉ (s.after later).use.numbers
  /-- Where connections are idle, one of them is lent and none is opened. It has been idle at least
  as long as the others: at any time before from which another has been idle there, it has been. -/
  longest : ∀ i e holder c rest, i < s.sizes.length → s.use.pool.idleAt e = c :: rest →
    (∃ s', s.step (.act i (.get e holder)) = (.got c, s') ∧ s'.use.built = s.use.built ∧
      s'.use.lease? holder = some ⟨c, e, false⟩) ∧
    ∀ s₀ : SharedPool, s₀.Reached size → ∀ events, s₀.after events = s →
      ∀ d ∈ rest, s₀.IdleThrough events e d.number → s₀.IdleThrough events e c.number
  /-- Where none is idle, the connection that is lent is new, and there is one if one can be
  opened. -/
  opened : ∀ i e holder, i < s.sizes.length → s.use.pool.idleAt e = [] →
    (s.step (.act i (.get e holder))).1 = (s.step (.act i (.build e))).1 ∧
    ∀ c s', s.step (.act i (.get e holder)) = (.got c, s') →
      c.number = s.use.built + 1 ∧ s'.use.built = s.use.built + 1 ∧
        s'.use.lease? holder = some ⟨c, e, false⟩
  /-- What fails leaves everything as it was. -/
  failed : ∀ i x f s', s.step (.act i x) = (.failed f, s') → s' = s

/-- Whatever happens to a pool and its clones, each connection is in one place, at its home. -/
theorem ownership (h : s.Reached size) : s.Ownership size := by
  have hsound := h.sound
  refine
    { once := hsound.use.once
      bounded := fun e => ?bounded
      home := fun n e hn later e' hlater => hsound.home_after hn later hlater
      dropped := fun i holder l hi hl e => ?dropped
      lost := fun i x n hi hloses later => ?lost
      gone := fun n hn hgone later => hsound.gone_after hn hgone later
      longest := fun i e holder c rest hi hidle => ⟨?lent, ?longest⟩
      opened := fun i e holder hi hidle => ⟨?answered, fun c s' hstep => ?opened⟩
      failed := fun i x f s' hstep => ?failed }
  case bounded =>
    rw [Pool.idleCount_eq]
    cases hq : s.use.pool.queue? e with
    | none => simp [Pool.idleAt, hq]
    | some q =>
      rw [Pool.idleAt_of_queue? hq]
      exact (hsound.use.pool.bounded e q hq).2
  case dropped =>
    rw [hsound.step_act hi]
    exact hsound.use.idleAt_release hl e
  case lost =>
    have hstep := hsound.step_act hi x
    refine (hsound.step (.act i x)).1.gone_after ?_ ?_ later
    · rw [hstep]
      exact hloses.le_built hsound.use
    · rw [hstep]
      exact hloses.not_mem_numbers hsound.use
  case lent =>
    obtain ⟨u', hrun, hbuilt, hlease⟩ := hsound.use.run_get_of_idle hidle holder
    rw [hsound.step_act hi, hrun]
    exact ⟨_, rfl, hbuilt, hlease⟩
  case longest =>
    intro s₀ h₀ events hevents d hd hthrough before hbefore
    have hfront : [c.number, d.number].Sublist
        (((s₀.after events).use.pool.idleAt e).map Connection.number) := by
      rw [hevents, hidle, List.map_cons]
      exact (List.singleton_sublist.2 (List.mem_map_of_mem hd)).cons_cons _
    have hpair := h₀.sound.in_front_through events hfront hthrough before hbefore
    exact hpair.subset List.mem_cons_self
  case answered =>
    rw [hsound.step_act hi, hsound.step_act hi]
    exact PoolUse.run_get_eq_build hidle holder
  case opened =>
    rw [hsound.step_act hi] at hstep
    obtain ⟨hanswer, rfl⟩ := Prod.mk.inj hstep
    exact hsound.use.run_get_of_none hidle (Prod.ext hanswer rfl)
  case failed =>
    by_cases hi : i < s.sizes.length
    · rw [hsound.step_act hi] at hstep
      obtain ⟨hanswer, rfl⟩ := Prod.mk.inj hstep
      have hsame : (s.use.run x).2 = s.use := PoolUse.run_failed (Prod.ext hanswer rfl)
      rw [hsame]
    · rw [step, List.getElem?_eq_none (Nat.le_of_not_lt hi)] at hstep
      cases hstep

/-- Two holders of a pool with room for one connection, of whom the first has given back, through a
clone, what it had got another label for. -/
def twoHolders : SharedPool :=
  (start 1).after [.act 0 (.setFactory "a" { label := "a" }), .act 0 (.get "a" "first"),
    .clone 0, .act 1 (.get "a" "second"), .act 1 (.relabel "first" "b"), .act 1 (.drop "first")]

theorem ownership_twoHolders :
    twoHolders.Reached 1 ∧ twoHolders.Ownership 1 ∧
      twoHolders.use.pool.idleAt "a" = [⟨1, "b"⟩] ∧ twoHolders.use.Loses 1 (.drop "second") 2 := by
  have hreached : twoHolders.Reached 1 := ⟨_, rfl⟩
  have hlease : twoHolders.use.lease? "second" = some ⟨⟨2, "a"⟩, "a", false⟩ := rfl
  exact ⟨hreached, ownership hreached, rfl, .dropped hlease (Or.inr (by decide))⟩

end SharedPool

end ShardRouting
