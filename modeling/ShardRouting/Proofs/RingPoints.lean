import Mathlib
import ShardRouting.Proofs.Membership

/-!
# Who owns the places of a ring

A ring is laid out by sorting the points of all endpoints and dropping those that another of the
same place follows. As the sort is stable, this is the same as placing the points one endpoint after
the other, where a later one takes over the places of earlier ones. So a place that has points
belongs to the last endpoint with a point there, and what a place leads to is found at the least
distance ahead, counted round the end of the ring.

* `ownerOf`: the endpoint that a place belongs to, said without sorting.
* `mem_places_iff`, `getElem?_of_mem_pointsOf`: the ring has the places with owners, each with the
  position of its owner.
* `locate_eq_some_iff`: a place leads to the owner of the nearest place ahead.
-/

namespace ShardRouting.HashRing

/-! ### The last of each place -/

/-- Of points in order, the last one at a place. -/
def lastAt (points : List (UInt32 × Nat)) (place : UInt32) : Option (UInt32 × Nat) :=
  (points.filter fun point => point.1 == place).getLast?

variable {points : List (UInt32 × Nat)}

theorem fst_of_lastAt {place : UInt32} {point : UInt32 × Nat}
    (h : lastAt points place = some point) : point.1 = place := by
  have hmem := List.mem_of_getLast? h
  simpa using (List.mem_filter.1 hmem).2

theorem lastAt_cons_of_ne {a : UInt32 × Nat} {place : UInt32} (h : a.1 ≠ place) :
    lastAt (a :: points) place = lastAt points place := by
  rw [lastAt, List.filter_cons_of_neg (by simpa using h), lastAt]

/-- In front of a point of the same place another one does not matter. -/
theorem lastAt_cons_cons {a b : UInt32 × Nat} (h : a.1 = b.1) (place : UInt32) :
    lastAt (a :: b :: points) place = lastAt (b :: points) place := by
  by_cases hb : b.1 = place
  · simp only [lastAt, List.filter_cons, h, hb, beq_self_eq_true, if_true, List.getLast?_cons_cons]
  · exact lastAt_cons_of_ne (h ▸ hb)

theorem lastAt_append (earlier later : List (UInt32 × Nat)) (place : UInt32) :
    lastAt (earlier ++ later) place = (lastAt later place).or (lastAt earlier place) := by
  rw [lastAt, List.filter_append, List.getLast?_append, lastAt, lastAt]

/-- A place that no point has has no last one. -/
theorem lastAt_eq_none {place : UInt32} (h : ∀ point ∈ points, point.1 ≠ place) :
    lastAt points place = none := by
  rw [lastAt, List.getLast?_eq_none_iff, List.filter_eq_nil_iff]
  simpa using h

/-- Of the points of one endpoint the last at a place is any of them. -/
theorem lastAt_map (places : List UInt32) (i : Nat) (place : UInt32) :
    lastAt (places.map fun place => (place, i)) place =
      if place ∈ places then some (place, i) else none := by
  split
  · next hplace =>
    cases hlast : lastAt (places.map fun place => (place, i)) place with
    | none =>
      rw [lastAt, List.getLast?_eq_none_iff, List.filter_eq_nil_iff] at hlast
      exact absurd (beq_self_eq_true place) (hlast (place, i) (List.mem_map.2 ⟨place, hplace, rfl⟩))
    | some point =>
      have hfst := fst_of_lastAt hlast
      obtain ⟨place', -, rfl⟩ :=
        List.mem_map.1 (List.mem_filter.1 (List.mem_of_getLast? hlast)).1
      rw [show place' = place from hfst]
  · next hplace =>
    apply lastAt_eq_none
    rintro point hpoint rfl
    obtain ⟨place, hmem, rfl⟩ := List.mem_map.1 hpoint
    exact hplace hmem

/-- The first of sorted points is not behind any of them. -/
theorem head_le_of_mem {a q : UInt32 × Nat} (h : (a :: points).Pairwise fun a b => a.1 ≤ b.1)
    (hq : q ∈ a :: points) : a.1 ≤ q.1 := by
  rcases List.mem_cons.1 hq with rfl | hq
  · exact UInt32.le_refl _
  · exact (List.pairwise_cons.1 h).1 q hq

/-- Among sorted points, those without a follower of the same place are the last ones. -/
theorem mem_lastOfEach_iff (h : points.Pairwise fun a b => a.1 ≤ b.1) {point : UInt32 × Nat} :
    point ∈ lastOfEach points ↔ lastAt points point.1 = some point := by
  induction points with
  | nil => simp [lastOfEach, lastAt]
  | cons a points ih =>
    obtain ⟨ha, hrest⟩ := List.pairwise_cons.1 h
    cases points with
    | nil =>
      by_cases hpoint : a.1 = point.1
      · simp [lastOfEach, lastAt, hpoint, eq_comm]
      · have hne : point ≠ a := fun heq => hpoint (heq ▸ rfl)
        simp [lastOfEach, lastAt, hpoint, hne]
    | cons b rest =>
      rw [lastOfEach]
      split
      · next heq => rw [ih hrest, lastAt_cons_cons heq]
      · next hne =>
        -- every later point is at or behind the second, so the first one is alone at its place
        have hlater : ∀ q ∈ b :: rest, q.1 ≠ a.1 := by
          intro q hq heq
          have hbq : b.1 ≤ q.1 := head_le_of_mem hrest hq
          exact hne (UInt32.le_antisymm (ha b List.mem_cons_self) (heq ▸ hbq))
        rw [List.mem_cons, ih hrest]
        by_cases hpoint : a.1 = point.1
        · have hnone := lastAt_eq_none hlater
          rw [hpoint] at hnone
          rw [hnone]
          have hfilter : (b :: rest).filter (fun q => q.1 == point.1) = [] := by
            rw [List.filter_eq_nil_iff]
            intro q hq
            simpa [hpoint] using hlater q hq
          rw [lastAt, List.filter_cons_of_pos (by simpa using hpoint), hfilter]
          simp [eq_comm]
        · have hne : point ≠ a := fun heq => hpoint (heq ▸ rfl)
          rw [lastAt_cons_of_ne hpoint]
          simp [hne]

/-- Points without those that another follows stand at different places. -/
theorem pairwise_lastOfEach (h : points.Pairwise fun a b => a.1 ≤ b.1) :
    (lastOfEach points).Pairwise fun a b => a.1 < b.1 := by
  induction points with
  | nil => simp [lastOfEach]
  | cons a points ih =>
    obtain ⟨ha, hrest⟩ := List.pairwise_cons.1 h
    cases points with
    | nil => simp [lastOfEach]
    | cons b rest =>
      rw [lastOfEach]
      split
      · exact ih hrest
      · next hne =>
        refine List.pairwise_cons.2 ⟨?_, ih hrest⟩
        intro q hq
        have hbq : b.1 ≤ q.1 := head_le_of_mem hrest ((lastOfEach_spec _).1 hq)
        exact UInt32.lt_of_lt_of_le (UInt32.lt_of_le_of_ne (ha b List.mem_cons_self) hne) hbq

/-! ### Sorting -/

theorem place_le_trans (a b c : UInt32 × Nat) :
    decide (a.1 ≤ b.1) = true → decide (b.1 ≤ c.1) = true → decide (a.1 ≤ c.1) = true := by
  simp only [decide_eq_true_eq]
  exact UInt32.le_trans

theorem place_le_total (a b : UInt32 × Nat) :
    (decide (a.1 ≤ b.1) || decide (b.1 ≤ a.1)) = true := by
  simp only [Bool.or_eq_true, decide_eq_true_eq]
  exact UInt32.le_total a.1 b.1

theorem pairwise_mergeSort (points : List (UInt32 × Nat)) :
    (points.mergeSort fun a b => a.1 ≤ b.1).Pairwise fun a b => a.1 ≤ b.1 :=
  (List.pairwise_mergeSort place_le_trans place_le_total points).imp of_decide_eq_true

/-- Sorting is stable: the last point of a place stays the last. -/
theorem lastAt_mergeSort (points : List (UInt32 × Nat)) (place : UInt32) :
    lastAt (points.mergeSort fun a b => a.1 ≤ b.1) place = lastAt points place := by
  have hplace : (points.filter fun point => point.1 == place).Pairwise
      fun a b => decide (a.1 ≤ b.1) = true := by
    apply List.pairwise_of_forall_mem_list
    intro a ha b hb
    have ha : a.1 = place := by simpa using (List.mem_filter.1 ha).2
    have hb : b.1 = place := by simpa using (List.mem_filter.1 hb).2
    simp [ha, hb]
  have hsub := (List.sublist_mergeSort place_le_trans place_le_total hplace
    List.filter_sublist).filter fun point => point.1 == place
  rw [List.filter_filter] at hsub
  simp only [Bool.and_self] at hsub
  have hlength := ((List.mergeSort_perm points fun a b => a.1 ≤ b.1).filter
    fun point => point.1 == place).length_eq
  rw [lastAt, lastAt, hsub.eq_of_length hlength.symm]

/-! ### Owners -/

/-- The points of endpoints as they are placed, each with the position of its endpoint. -/
def placed (replicas : Nat) (items : List Endpoint) : List (UInt32 × Nat) :=
  items.zipIdx.flatMap fun (e, i) => (ownPoints replicas e).map fun point => (point, i)

/-- The endpoint that a place belongs to: the last one with a point there. -/
def ownerOf (replicas : Nat) (items : List Endpoint) (place : UInt32) : Option Endpoint :=
  items.reverse.find? fun e => (ownPoints replicas e).contains place

variable {replicas : Nat} {items : List Endpoint}

theorem ownerOf_append (others : List Endpoint) (place : UInt32) :
    ownerOf replicas (items ++ others) place =
      (ownerOf replicas others place).or (ownerOf replicas items place) := by
  rw [ownerOf, List.reverse_append, List.find?_append, ownerOf, ownerOf]

theorem ownerOf_singleton (e : Endpoint) (place : UInt32) :
    ownerOf replicas [e] place = if place ∈ ownPoints replicas e then some e else none := by
  by_cases hplace : place ∈ ownPoints replicas e <;> simp [ownerOf, hplace]

theorem mem_of_ownerOf {place : UInt32} {e : Endpoint} (h : ownerOf replicas items place = some e) :
    e ∈ items ∧ place ∈ ownPoints replicas e :=
  ⟨List.mem_reverse.1 (List.mem_of_find?_eq_some h), by simpa using List.find?_some h⟩

/-- A place has an owner if some endpoint has a point there. -/
theorem exists_ownerOf_iff {place : UInt32} : (∃ e, ownerOf replicas items place = some e) ↔
    ∃ e ∈ items, place ∈ ownPoints replicas e := by
  rw [← Option.isSome_iff_exists, ownerOf, List.find?_isSome]
  simp

theorem placed_append_singleton (items : List Endpoint) (e : Endpoint) :
    placed replicas (items ++ [e]) =
      placed replicas items ++ (ownPoints replicas e).map fun point => (point, items.length) := by
  simp [placed, List.zipIdx_append]

theorem lt_of_mem_placed {point : UInt32 × Nat} (h : point ∈ placed replicas items) :
    point.2 < items.length := by
  obtain ⟨⟨e, i⟩, hentry, hpoint⟩ := List.mem_flatMap.1 h
  obtain ⟨place, -, rfl⟩ := List.mem_map.1 hpoint
  have hi := List.mem_zipIdx hentry
  omega

/-- What is placed last at a place is a point of its owner. -/
theorem lastAt_placed (replicas : Nat) (items : List Endpoint) (place : UInt32) :
    (lastAt (placed replicas items) place).bind (fun point => items[point.2]?) =
      ownerOf replicas items place := by
  induction items using List.reverseRecOn with
  | nil => rfl
  | append_singleton items e ih =>
    rw [ownerOf_append, ownerOf_singleton, placed_append_singleton, lastAt_append, lastAt_map]
    split
    · simp
    · rw [Option.none_or, Option.none_or, ← ih]
      apply Option.bind_congr
      intro point hpoint
      have hmem := List.mem_of_getLast? hpoint
      exact List.getElem?_append_left (lt_of_mem_placed (List.mem_filter.1 hmem).1)

/-- The ring has the last point of each place, with the position of the owner of the place. -/
theorem getElem?_of_mem_pointsOf {point : UInt32 × Nat} (h : point ∈ pointsOf replicas items) :
    items[point.2]? = ownerOf replicas items point.1 := by
  have hlast := (mem_lastOfEach_iff (pairwise_mergeSort (placed replicas items))).1 h
  rw [lastAt_mergeSort] at hlast
  rw [← lastAt_placed, hlast, Option.bind_some]

/-- The places of the ring are those that have owners. -/
theorem mem_places_iff {place : UInt32} : place ∈ (pointsOf replicas items).map Prod.fst ↔
    ∃ e, ownerOf replicas items place = some e := by
  constructor
  · intro h
    obtain ⟨point, hpoint, rfl⟩ := List.mem_map.1 h
    exact ⟨_, (getElem?_of_mem_pointsOf hpoint).symm.trans
      (List.getElem?_eq_getElem (lt_of_mem_pointsOf hpoint))⟩
  · rintro ⟨e, he⟩
    rw [← lastAt_placed, Option.bind_eq_some_iff] at he
    obtain ⟨point, hlast, -⟩ := he
    obtain rfl := fst_of_lastAt hlast
    rw [← lastAt_mergeSort] at hlast
    exact List.mem_map.2 ⟨point, (mem_lastOfEach_iff (pairwise_mergeSort _)).2 hlast, rfl⟩

theorem pairwise_pointsOf (replicas : Nat) (items : List Endpoint) :
    (pointsOf replicas items).Pairwise fun a b => a.1 < b.1 :=
  pairwise_lastOfEach (pairwise_mergeSort _)

/-! ### The nearest place ahead -/

/-- How far one place is ahead of another. -/
theorem toNat_sub_place (point place : UInt32) : (point - place).toNat =
    if place.toNat ≤ point.toNat then point.toNat - place.toNat
    else 4294967296 - place.toNat + point.toNat := by
  have hpoint := point.toNat_lt
  have hplace := place.toNat_lt
  rw [UInt32.toNat_sub]
  split <;> omega

/-- A point is nearer than another one ahead of a place if it is not behind that, or if the other
one is met only round the end. -/
theorem sub_le_sub_of {point q place : UInt32} (hround : place ≤ point ∨ q < place)
    (h : point ≤ q ∨ q < place ∧ place ≤ point) : point - place ≤ q - place := by
  have hpoint := point.toNat_lt
  have hplace := place.toNat_lt
  rw [UInt32.le_iff_toNat_le, toNat_sub_place, toNat_sub_place]
  simp only [UInt32.le_iff_toNat_le, UInt32.lt_iff_toNat_lt] at hround h
  split <;> split <;> omega

/-- The first point at or behind a place, or the first of all, is the nearest one ahead, where
distances are counted round the end of the ring. -/
theorem nearest_of_find? (h : points.Pairwise fun a b => a.1 < b.1) {place : UInt32}
    {point : UInt32 × Nat}
    (hfind : (points.find? fun point => place ≤ point.1).or points.head? = some point) :
    point ∈ points ∧ ∀ q ∈ points, point.1 - place ≤ q.1 - place := by
  have hsorted : points.Pairwise fun a b => a.1 ≤ b.1 := h.imp UInt32.le_of_lt
  rcases Option.or_eq_some_iff.1 hfind with hfound | ⟨hnone, hhead⟩
  · obtain ⟨hpoint, before, rest, rfl, hbefore⟩ := List.find?_eq_some_iff_append.1 hfound
    have hplace : place ≤ point.1 := of_decide_eq_true hpoint
    refine ⟨by simp, ?_⟩
    intro q hq
    apply sub_le_sub_of (Or.inl hplace)
    rcases List.mem_append.1 hq with hq | hq
    · have hq := hbefore q hq
      simp only [Bool.not_eq_true', decide_eq_false_iff_not, UInt32.not_le] at hq
      exact Or.inr ⟨hq, hplace⟩
    · exact Or.inl (head_le_of_mem (List.pairwise_append.1 hsorted).2.1 hq)
  · have hround : ∀ q ∈ points, q.1 < place := by
      intro q hq
      simpa using List.find?_eq_none.1 hnone q hq
    obtain ⟨rest, rfl⟩ : ∃ rest, points = point :: rest := by
      cases points with
      | nil => cases hhead
      | cons first rest => exact ⟨rest, by rw [Option.some.inj hhead]⟩
    refine ⟨List.mem_cons_self, ?_⟩
    intro q hq
    exact sub_le_sub_of (Or.inr (hround q hq)) (Or.inl (head_le_of_mem hsorted hq))

/-- Of all places with owners, the nearest one ahead of a place. -/
def Nearest (replicas : Nat) (items : List Endpoint) (place point : UInt32) : Prop :=
  ∀ q e, ownerOf replicas items q = some e → point - place ≤ q - place

/-- No place is nearer than the place itself. -/
theorem nearest_self (replicas : Nat) (items : List Endpoint) (place : UInt32) :
    Nearest replicas items place place := by
  intro q e _
  rw [UInt32.sub_self, UInt32.le_iff_toNat_le]
  exact Nat.zero_le _

/-- Nearest places are the same: distances tell places apart. -/
theorem Nearest.unique {place point other : UInt32} {e x : Endpoint}
    (hpoint : Nearest replicas items place point) (hother : Nearest replicas items place other)
    (he : ownerOf replicas items point = some e) (hx : ownerOf replicas items other = some x) :
    point = other := by
  have hdistance := UInt32.le_antisymm (hpoint other x hx) (hother point e he)
  exact (UInt32.sub_left_inj place).1 hdistance

variable {r : HashRing}

/-- Where some place has an owner, every place leads to the owner of the nearest place ahead. -/
theorem exists_nearest (h : r.Pointed) {q : UInt32} {x : Endpoint}
    (hq : ownerOf r.replicas r.items q = some x) (place : UInt32) :
    ∃ point e, ownerOf r.replicas r.items point = some e ∧
      Nearest r.replicas r.items place point ∧ r.locate place = some e := by
  obtain ⟨hpointed, hpoints⟩ := h
  have hne : r.points ≠ [] := by
    rw [hpoints]
    intro hnil
    have hplace := mem_places_iff.2 ⟨x, hq⟩
    simp [hnil] at hplace
  obtain ⟨point, hfind⟩ : ∃ point,
      (r.points.find? fun point => place ≤ point.1).or r.points.head? = some point := by
    apply Option.isSome_iff_exists.1
    simp [Option.isSome_or, List.isSome_head?, hne]
  have hsorted := pairwise_pointsOf r.replicas r.items
  rw [← hpoints] at hsorted
  obtain ⟨hmem, hleast⟩ := nearest_of_find? hsorted hfind
  rw [hpoints] at hmem hleast
  have hitem := List.getElem?_eq_getElem (lt_of_mem_pointsOf hmem)
  refine ⟨point.1, _, (getElem?_of_mem_pointsOf hmem).symm.trans hitem, ?_, ?_⟩
  · intro q x hx
    obtain ⟨other, hother, rfl⟩ := List.mem_map.1 (mem_places_iff.2 ⟨x, hx⟩)
    exact hleast other hother
  · rw [locate, hfind, Option.bind_some, hitem]

/-- A place leads to the owner of the nearest place ahead. -/
theorem locate_eq_some_iff (h : r.Pointed) {place : UInt32} {e : Endpoint} :
    r.locate place = some e ↔ ∃ point, ownerOf r.replicas r.items point = some e ∧
      Nearest r.replicas r.items place point := by
  constructor
  · intro hlocate
    obtain ⟨point, hfind, -⟩ := Option.bind_eq_some_iff.1 hlocate
    have hmem : point ∈ r.points := by
      rcases Option.or_eq_some_iff.1 hfind with hfound | ⟨-, hhead⟩
      · exact List.mem_of_find?_eq_some hfound
      · exact List.mem_of_head? hhead
    rw [h.2] at hmem
    obtain ⟨x, hx⟩ := mem_places_iff.1 (List.mem_map_of_mem hmem)
    obtain ⟨point, e', howner, hnearest, hlocate'⟩ := exists_nearest h hx place
    rw [hlocate, Option.some_inj] at hlocate'
    exact ⟨point, hlocate' ▸ howner, hnearest⟩
  · rintro ⟨point, howner, hnearest⟩
    obtain ⟨other, e', howner', hnearest', hlocate⟩ := exists_nearest h howner place
    obtain rfl := hnearest.unique hnearest' howner howner'
    rwa [howner.symm.trans howner']

end ShardRouting.HashRing
