import Mathlib
import ShardRouting.Proofs.RingMoves

/-!
# Shares of a ring

Each endpoint of a ring has a point for each unit of its weight and each replica. It owns the places
of these points that no later endpoint has a point at, so all endpoints own as many places as they
have points exactly if no two points of the ring meet. Points are checksums of the name of the
endpoint and a number; the shard does not enter into them. So points meet where checksums collide
and wherever two endpoints bear one name, and then the earlier of the two owns only the places for
which the later one has too little weight. An endpoint whose points are more than a word counts has
fewer of them on the ring, but so many points could not be apart anyway.

* `label`, `label_inj`: what a point is the checksum of.
* `ownedBy`, `mem_ownedBy_iff`: the places that an endpoint owns.
* `HashRing.Apart`: no two points meet; `HashRing.Shared`: how the places are shared out.
* `Family.shares_after`: the shares behind any calls; `Family.not_shares_after`: two endpoints of
  one name in two shards.
-/

namespace ShardRouting

namespace HashRing

variable {replicas : Nat} {items before rest : List Endpoint} {r : HashRing} {e : Endpoint}
  {place : UInt32}

/-! ### Labels of points -/

/-- The text whose checksum a point is. -/
def label (name : String) (i : Nat) : String :=
  name ++ "#" ++ toString i

theorem toList_label (name : String) (i : Nat) :
    (label name i).toList = name.toList ++ '#' :: Nat.toDigits 10 i := by
  simp [label]

theorem toDigits_injective {i j : Nat} (h : Nat.toDigits 10 i = Nat.toDigits 10 j) : i = j := by
  rw [← Nat.ofDigitChars_ten_toDigits (n := i), h, Nat.ofDigitChars_ten_toDigits]

theorem sharp_notMem_toDigits (i : Nat) : '#' ∉ Nat.toDigits 10 i := by
  intro h
  have hdigit := Nat.isDigit_of_mem_toDigits (by decide) (by decide) h
  exact absurd hdigit (by decide)

/-- The last mark of a text tells what precedes it from what follows. -/
theorem eq_of_append_sharp {cs ds ms ns : List Char} (hm : '#' ∉ ms)
    (hn : '#' ∉ ns) (h : cs ++ '#' :: ms = ds ++ '#' :: ns) : cs = ds ∧ ms = ns := by
  rcases List.append_eq_append_iff.1 h with ⟨between, rfl, hrest⟩ | ⟨between, rfl, hrest⟩
  · cases between with
    | nil => exact ⟨by simp, (List.cons.inj hrest).2⟩
    | cons c between =>
      rw [List.cons_append] at hrest
      exact absurd (by simp [(List.cons.inj hrest).2]) hm
  · cases between with
    | nil => exact ⟨by simp, (List.cons.inj hrest).2.symm⟩
    | cons c between =>
      rw [List.cons_append] at hrest
      exact absurd (by simp [(List.cons.inj hrest).2]) hn

/-- A label tells the name and the number: the number is what follows the last mark. -/
theorem label_inj {name name' : String} {i j : Nat} :
    label name i = label name' j ↔ name = name' ∧ i = j := by
  constructor
  · intro h
    have hlist := congrArg String.toList h
    rw [toList_label, toList_label] at hlist
    obtain ⟨hname, hdigits⟩ :=
      eq_of_append_sharp (sharp_notMem_toDigits i) (sharp_notMem_toDigits j) hlist
    exact ⟨String.toList_inj.1 hname, toDigits_injective hdigits⟩
  · rintro ⟨rfl, rfl⟩
    rfl

/-! ### Lists -/

/-- Members of a list are related pairwise if each is related to those behind it. -/
theorem pairwise_iff_forall_split {α : Type} {R : α → α → Prop} {l : List α} :
    l.Pairwise R ↔ ∀ before e rest, l = before ++ e :: rest → ∀ x ∈ rest, R e x := by
  constructor
  · rintro h before e rest rfl
    exact (List.pairwise_cons.1 (List.pairwise_append.1 h).2.1).1
  · intro h
    induction l with
    | nil => exact List.Pairwise.nil
    | cons a l ih =>
      refine List.pairwise_cons.2 ⟨h [] a l rfl, ih ?_⟩
      rintro before e rest rfl
      exact h (a :: before) e rest rfl

/-- Of two sums, one with lesser members is the same only if its members are. -/
theorem sum_map_eq_iff {α : Type} {f g : α → Nat} {l : List α} (h : ∀ a ∈ l, f a ≤ g a) :
    (l.map f).sum = (l.map g).sum ↔ ∀ a ∈ l, f a = g a := by
  induction l with
  | nil => simp
  | cons a l ih =>
    have hrest : ∀ x ∈ l, f x ≤ g x := fun x hx => h x (List.mem_cons_of_mem a hx)
    have hfirst := h a List.mem_cons_self
    have hsum := List.sum_le_sum hrest
    rw [List.map_cons, List.map_cons, List.sum_cons, List.sum_cons, List.forall_mem_cons,
      ← ih hrest]
    omega

/-! ### Points that meet -/

/-- The labels of an endpoint. -/
def ownLabels (replicas : Nat) (e : Endpoint) : List String :=
  (List.range (replicas * e.weight.toNatClampNeg)).map (label e.name)

/-- The labels of all endpoints. -/
def labels (replicas : Nat) (items : List Endpoint) : List String :=
  items.flatMap (ownLabels replicas)

/-- The points of a ring are apart: endpoints differ in their names, and labels in their
checksums. -/
structure Apart (r : HashRing) : Prop where
  /-- No two endpoints have one name. -/
  names : (r.items.map Endpoint.name).Nodup
  /-- No two labels have one checksum. -/
  checksums : ∀ s ∈ labels r.replicas r.items, ∀ t ∈ labels r.replicas r.items,
    checksum s = checksum t → s = t

theorem nodup_ownLabels (replicas : Nat) (e : Endpoint) : (ownLabels replicas e).Nodup :=
  List.nodup_range.map fun _ _ h => (label_inj.1 h).2

/-- Labels are different if names are. -/
theorem nodup_labels_iff (hreplicas : 0 < replicas) (hpos : ∀ e ∈ items, 0 < e.weight) :
    (labels replicas items).Nodup ↔ (items.map Endpoint.name).Nodup := by
  rw [labels, List.nodup_flatMap, List.Nodup, List.pairwise_map]
  constructor
  · rintro ⟨-, hdisjoint⟩
    refine hdisjoint.imp_of_mem ?_
    intro x y hx hy hdisjoint hname
    have hfirst : ∀ e ∈ items, label e.name 0 ∈ ownLabels replicas e := by
      intro e he
      have hcount := replicas_mul_pos hreplicas (hpos e he)
      exact List.mem_map.2 ⟨0, List.mem_range.2 hcount, rfl⟩
    exact hdisjoint (hfirst x hx) (hname ▸ hfirst y hy)
  · intro hnames
    refine ⟨fun e _ => nodup_ownLabels replicas e, hnames.imp ?_⟩
    intro x y hname s hx hy
    obtain ⟨i, -, rfl⟩ := List.mem_map.1 hx
    obtain ⟨j, -, hlabel⟩ := List.mem_map.1 hy
    exact hname (label_inj.1 hlabel).1.symm

/-- There are as many points of an endpoint as its weight says, if that is within a word. -/
theorem toNat_pointCount_of_bounded (hpos : 0 < e.weight)
    (hbounded : replicas * e.weight.toNatClampNeg < UInt64.size) :
    (pointCount replicas e.weight).toNat = replicas * e.weight.toNatClampNeg := by
  rw [toNat_pointCount hpos, Nat.mod_eq_of_lt hbounded]

/-- Points are apart if no two of them are at one place. -/
theorem apart_iff (hreplicas : 0 < r.replicas) (hpos : ∀ e ∈ r.items, 0 < e.weight)
    (hbounded : ∀ e ∈ r.items, r.replicas * e.weight.toNatClampNeg < UInt64.size) :
    r.Apart ↔ (r.items.flatMap (ownPoints r.replicas)).Nodup := by
  have hpoints : r.items.flatMap (ownPoints r.replicas) =
      (labels r.replicas r.items).map checksum := by
    rw [labels, List.map_flatMap]
    refine List.flatMap_congr fun e he => ?_
    rw [ownPoints, ownLabels, List.map_map,
      toNat_pointCount_of_bounded (hpos e he) (hbounded e he)]
    rfl
  rw [hpoints]
  constructor
  · rintro ⟨hnames, hchecksums⟩
    exact (List.nodup_map_iff_inj_on ((nodup_labels_iff hreplicas hpos).2 hnames)).2 hchecksums
  · intro hnodup
    have hlabels := hnodup.of_map
    exact ⟨(nodup_labels_iff hreplicas hpos).1 hlabels,
      (List.nodup_map_iff_inj_on hlabels).1 hnodup⟩

/-- There are only so many places on a ring. -/
theorem length_le_of_nodup {places : List UInt32} (h : places.Nodup) :
    places.length ≤ UInt32.size := by
  have hnumbers : (places.map UInt32.toNat).Nodup := h.map fun _ _ => UInt32.toNat_inj.1
  have hsub : places.map UInt32.toNat ⊆ List.range UInt32.size := by
    intro n hn
    obtain ⟨place, -, rfl⟩ := List.mem_map.1 hn
    exact List.mem_range.2 place.toNat_lt_size
  simpa using (List.subperm_of_subset hnumbers hsub).length_le

/-- Points that are more than a word counts are not apart: there are not as many places. -/
theorem not_apart_of_le (he : e ∈ r.items)
    (hexceeds : UInt64.size ≤ r.replicas * e.weight.toNatClampNeg) : ¬ r.Apart := by
  intro hapart
  have hinj : ∀ s ∈ ownLabels r.replicas e, ∀ t ∈ ownLabels r.replicas e,
      checksum s = checksum t → s = t := fun s hs t ht =>
    hapart.checksums s (List.mem_flatMap.2 ⟨e, he, hs⟩) t (List.mem_flatMap.2 ⟨e, he, ht⟩)
  have hplaces : ((ownLabels r.replicas e).map checksum).Nodup :=
    (List.nodup_map_iff_inj_on (nodup_ownLabels _ _)).2 hinj
  have hlength := length_le_of_nodup hplaces
  rw [List.length_map, ownLabels, List.length_map, List.length_range] at hlength
  exact absurd (hexceeds.trans hlength) (by decide)

/-! ### Places of an endpoint -/

/-- The places of a ring that belong to an endpoint. -/
def ownedBy (r : HashRing) (e : Endpoint) : List UInt32 :=
  (r.points.filter fun point => r.items[point.2]?.any fun x => x.isSame e).map Prod.fst

/-- Of different endpoints only one is the same as it. -/
theorem isSame_iff_of_mem (h : Endpoint.Roster items) {x : Endpoint} (hx : x ∈ items)
    (he : e ∈ items) : x.isSame e = true ↔ x = e := by
  constructor
  · intro hsame
    by_contra hne
    have hsymm : Std.Symm fun x y : Endpoint => x.isSame y = false :=
      ⟨fun x y h => by rwa [Endpoint.isSame_comm]⟩
    rw [h.distinct.forall hx he hne] at hsame
    cases hsame
  · rintro rfl
    exact Endpoint.isSame_self x

section Owners

variable (h : r.Pointed) (hroster : Endpoint.Roster r.items)
include h

theorem nodup_places : (r.points.map Prod.fst).Nodup := by
  rw [h.2, List.Nodup, List.pairwise_map]
  apply (pairwise_pointsOf _ _).imp
  intro a b hlt heq
  rw [heq] at hlt
  exact UInt32.lt_irrefl _ hlt

theorem nodup_ownedBy (e : Endpoint) : (r.ownedBy e).Nodup :=
  (nodup_places h).sublist (List.filter_sublist.map _)

include hroster

/-- The endpoint of a point is the same as another one if it is that. -/
theorem any_isSame_iff {point : UInt32 × Nat} (hpoint : point ∈ r.points) (he : e ∈ r.items) :
    (r.items[point.2]?.any fun x => x.isSame e) = true ↔ r.items[point.2]? = some e := by
  rw [h.2] at hpoint
  have hlt := lt_of_mem_pointsOf hpoint
  rw [List.getElem?_eq_getElem hlt, Option.any_some, Option.some_inj]
  exact isSame_iff_of_mem hroster (List.getElem_mem hlt) he

/-- A place belongs to an endpoint if that is the last one with a point there. -/
theorem mem_ownedBy_iff (he : e ∈ r.items) :
    place ∈ r.ownedBy e ↔ ownerOf r.replicas r.items place = some e := by
  rw [ownedBy, List.mem_map]
  constructor
  · rintro ⟨point, hpoint, rfl⟩
    obtain ⟨hpoint, hsame⟩ := List.mem_filter.1 hpoint
    have hitem := (any_isSame_iff h hroster hpoint he).1 hsame
    rw [h.2] at hpoint
    rw [← getElem?_of_mem_pointsOf hpoint, hitem]
  · intro howner
    obtain ⟨point, hpoint, rfl⟩ := List.mem_map.1 (mem_places_iff.2 ⟨e, howner⟩)
    have hitem := (getElem?_of_mem_pointsOf hpoint).trans howner
    rw [← h.2] at hpoint
    exact ⟨point, List.mem_filter.2 ⟨hpoint, (any_isSame_iff h hroster hpoint he).2 hitem⟩, rfl⟩

theorem ownedBy_subset (he : e ∈ r.items) : r.ownedBy e ⊆ ownPoints r.replicas e := by
  intro place hplace
  exact (mem_of_ownerOf ((mem_ownedBy_iff h hroster he).1 hplace)).2

/-- An endpoint owns the places of its points at which no later endpoint has one. -/
theorem mem_ownedBy_iff_of_split (hitems : r.items = before ++ e :: rest) :
    place ∈ r.ownedBy e ↔
      place ∈ ownPoints r.replicas e ∧ ∀ x ∈ rest, place ∉ ownPoints r.replicas x := by
  have he : e ∈ r.items := by simp [hitems]
  have hnodup : (before ++ e :: rest).Nodup := hitems ▸ hroster.nodup
  obtain ⟨-, hnodup, hbefore⟩ := List.nodup_append.1 hnodup
  rw [mem_ownedBy_iff h hroster he, hitems, ← List.singleton_append, ownerOf_append, ownerOf_append,
    ownerOf_singleton]
  cases hrest : ownerOf r.replicas rest place with
  | some x =>
    obtain ⟨hx, hpoint⟩ := mem_of_ownerOf hrest
    have hne : x ≠ e := by
      rintro rfl
      exact (List.nodup_cons.1 hnodup).1 hx
    simp only [Option.some_or, Option.some_inj, hne, false_iff]
    exact fun hall => hall.2 x hx hpoint
  | none =>
    have hnone : ∀ x ∈ rest, place ∉ ownPoints r.replicas x := by
      intro x hx hpoint
      obtain ⟨y, hy⟩ := exists_ownerOf_iff.2 ⟨x, hx, hpoint⟩
      rw [hrest] at hy
      cases hy
    rw [Option.none_or]
    split
    · next hpoint => simpa [hpoint] using hnone
    · next hpoint =>
      simp only [Option.none_or, hpoint, false_and, iff_false]
      intro howner
      exact hbefore e (mem_of_ownerOf howner).1 e List.mem_cons_self rfl

/-- An endpoint owns as many places as it has points if these are apart from each other and from
those of later endpoints. -/
theorem length_ownedBy_eq_iff (hitems : r.items = before ++ e :: rest) :
    (r.ownedBy e).length = (ownPoints r.replicas e).length ↔
      (ownPoints r.replicas e).Nodup ∧
        ∀ x ∈ rest, List.Disjoint (ownPoints r.replicas e) (ownPoints r.replicas x) := by
  have he : e ∈ r.items := by simp [hitems]
  have hnodup := nodup_ownedBy h e
  constructor
  · intro hlength
    have hperm := (hnodup.subperm (ownedBy_subset h hroster he)).perm_of_length_le hlength.ge
    refine ⟨hperm.nodup_iff.1 hnodup, ?_⟩
    intro x hx place hpoint hother
    have howned := hperm.mem_iff.2 hpoint
    exact ((mem_ownedBy_iff_of_split h hroster hitems).1 howned).2 x hx hother
  · rintro ⟨hown, hdisjoint⟩
    refine ((List.perm_ext_iff_of_nodup hnodup hown).2 ?_).length_eq
    intro place
    rw [mem_ownedBy_iff_of_split h hroster hitems]
    exact ⟨And.left, fun hpoint => ⟨hpoint, fun x hx hother => hdisjoint x hx hpoint hother⟩⟩

/-- Every point of a ring belongs to one endpoint. -/
theorem sum_length_ownedBy :
    (r.items.map fun e => (r.ownedBy e).length).sum = r.points.length := by
  have hone : ∀ point ∈ r.points,
      (r.items.countP fun e => r.items[point.2]?.any fun x => x.isSame e) = 1 := by
    intro point hpoint
    have hlt : point.2 < r.items.length := lt_of_mem_pointsOf (h.2 ▸ hpoint)
    have hcount : (r.items.countP fun e => r.items[point.2]?.any fun x => x.isSame e) =
        r.items.count r.items[point.2] := by
      rw [List.count_eq_countP]
      apply List.countP_congr
      intro e he
      rw [any_isSame_iff h hroster hpoint he, List.getElem?_eq_getElem hlt, Option.some_inj,
        beq_iff_eq, eq_comm]
    rw [hcount]
    exact List.count_eq_one_of_mem hroster.nodup (List.getElem_mem hlt)
  have hlength : ∀ e, (r.ownedBy e).length =
      r.points.countP fun point => r.items[point.2]?.any fun x => x.isSame e := by
    intro e
    rw [ownedBy, List.length_map, List.countP_eq_length_filter]
  simp only [hlength]
  rw [sum_countP_comm fun (e : Endpoint) (point : UInt32 × Nat) =>
    r.items[point.2]?.any fun x => x.isSame e, List.map_congr_left hone]
  simp

/-- All endpoints own as many places as they have points if no two points are at one place. -/
theorem forall_length_ownedBy_iff :
    (∀ e ∈ r.items, (r.ownedBy e).length = (ownPoints r.replicas e).length) ↔
      (r.items.flatMap (ownPoints r.replicas)).Nodup := by
  rw [List.nodup_flatMap, pairwise_iff_forall_split]
  constructor
  · intro hall
    refine ⟨?_, ?_⟩
    · intro e he
      obtain ⟨before, rest, hitems⟩ := List.append_of_mem he
      exact ((length_ownedBy_eq_iff h hroster hitems).1 (hall e he)).1
    · intro before e rest hitems
      have he : e ∈ r.items := by simp [hitems]
      exact ((length_ownedBy_eq_iff h hroster hitems).1 (hall e he)).2
  · rintro ⟨hown, hdisjoint⟩ e he
    obtain ⟨before, rest, hitems⟩ := List.append_of_mem he
    exact (length_ownedBy_eq_iff h hroster hitems).2
      ⟨hown e he, hdisjoint before e rest hitems⟩

end Owners

/-! ### Shares -/

/-- How the places of a ring are shared out among its endpoints. -/
structure Shared (r : HashRing) : Prop where
  /-- The places of the ring are those of its endpoints. -/
  length_eq : r.points.length = (r.items.map fun e => (r.ownedBy e).length).sum
  /-- No endpoint owns more places than its weight says. -/
  length_le : ∀ e ∈ r.items, ((r.ownedBy e).length : Int) ≤ r.replicas * e.weight.toInt
  /-- Each owns as many if points are apart, and only then. -/
  full_iff :
    (∀ e ∈ r.items, ((r.ownedBy e).length : Int) = r.replicas * e.weight.toInt) ↔ r.Apart
  /-- The ring has as many places as all weights together say if points are apart, and only
  then. -/
  total_iff :
    (r.points.length : Int) = (r.items.map fun e => (r.replicas : Int) * e.weight.toInt).sum ↔
      r.Apart
  /-- The places of an endpoint lead to it. -/
  leads : ∀ e ∈ r.items, ∀ place ∈ r.ownedBy e, r.locate place = some e
  /-- An endpoint is selected by some draw if it owns a place, and only then. -/
  selected_iff : ∀ e ∈ r.items, (∃ draw, r.next draw = some e) ↔ r.ownedBy e ≠ []

/-- Every endpoint of a ring has its full share. -/
structure Full (r : HashRing) : Prop where
  /-- It owns as many places as its weight says. -/
  owned : ∀ e ∈ r.items, ((r.ownedBy e).length : Int) = r.replicas * e.weight.toInt
  /-- The ring has as many places as all weights together say. -/
  total : (r.points.length : Int) = (r.items.map fun e => (r.replicas : Int) * e.weight.toInt).sum
  /-- Some place of the ring leads to it. -/
  found : ∀ e ∈ r.items, ∃ point ∈ r.points, r.locate point.1 = some e

/-- The points that the weight of an endpoint says, in integers. -/
theorem natCast_replicas_mul (hpos : 0 < e.weight) :
    ((replicas * e.weight.toNatClampNeg : Nat) : Int) = replicas * e.weight.toInt := by
  rw [Nat.cast_mul, Integer.natCast_toNatClampNeg hpos]

theorem length_ownPoints (replicas : Nat) (e : Endpoint) :
    (ownPoints replicas e).length = (pointCount replicas e.weight).toNat := by
  rw [ownPoints, List.length_map, List.length_range]

theorem mem_points_of_mem_ownedBy (h : place ∈ r.ownedBy e) :
    ∃ point ∈ r.points, point.1 = place := by
  obtain ⟨point, hpoint, rfl⟩ := List.mem_map.1 h
  exact ⟨point, (List.mem_filter.1 hpoint).1, rfl⟩

section Pointed

variable (h : r.Pointed) (hroster : Endpoint.Roster r.items)
include h hroster

theorem locate_of_mem_ownedBy (he : e ∈ r.items) (hplace : place ∈ r.ownedBy e) :
    r.locate place = some e :=
  (locate_eq_some_iff h).2
    ⟨place, (mem_ownedBy_iff h hroster he).1 hplace, nearest_self _ _ place⟩

/-- No endpoint owns more places than it has points. -/
theorem length_ownedBy_le (he : e ∈ r.items) :
    (r.ownedBy e).length ≤ (ownPoints r.replicas e).length :=
  ((nodup_ownedBy h e).subperm (ownedBy_subset h hroster he)).length_le

/-- Where the points of endpoints are within a word, these own as many places as their weights say
exactly if points are apart. -/
theorem full_iff_of_bounded
    (hbounded : ∀ e ∈ r.items, r.replicas * e.weight.toNatClampNeg < UInt64.size) :
    (∀ e ∈ r.items, (r.ownedBy e).length = r.replicas * e.weight.toNatClampNeg) ↔ r.Apart := by
  rw [apart_iff h.1 hroster.positive hbounded, ← forall_length_ownedBy_iff h hroster]
  refine forall₂_congr fun e he => ?_
  rw [length_ownPoints, toNat_pointCount_of_bounded (hroster.positive e he) (hbounded e he)]

/-- Whatever a word counts, endpoints own as many places as their weights say exactly if points are
apart, and the ring has as many places as all weights together say exactly then. -/
theorem full_iff_total_iff :
    ((∀ e ∈ r.items, (r.ownedBy e).length = r.replicas * e.weight.toNatClampNeg) ↔ r.Apart) ∧
      (r.points.length = (r.items.map fun e => r.replicas * e.weight.toNatClampNeg).sum ↔
        r.Apart) := by
  by_cases hbounded : ∀ e ∈ r.items, r.replicas * e.weight.toNatClampNeg < UInt64.size
  · have hfull := full_iff_of_bounded h hroster hbounded
    refine ⟨hfull, ?_⟩
    have hle : ∀ e ∈ r.items, (r.ownedBy e).length ≤ r.replicas * e.weight.toNatClampNeg := by
      intro e he
      have howned := length_ownedBy_le h hroster he
      rwa [length_ownPoints, toNat_pointCount_of_bounded (hroster.positive e he) (hbounded e he)]
        at howned
    rw [← sum_length_ownedBy h hroster, sum_map_eq_iff hle, hfull]
  · -- one endpoint alone should have more points than there are places
    obtain ⟨e, he, hexceeds⟩ : ∃ e ∈ r.items,
        UInt64.size ≤ r.replicas * e.weight.toNatClampNeg := by simpa using hbounded
    have hapart := not_apart_of_le he hexceeds
    have hsize : UInt32.size < UInt64.size := by decide
    refine ⟨iff_of_false (fun hall => ?_) hapart, iff_of_false (fun htotal => ?_) hapart⟩
    · have howned := length_le_of_nodup (nodup_ownedBy h e)
      rw [hall e he] at howned
      omega
    · have hplaces := length_le_of_nodup (nodup_places h)
      have hsummand := List.single_le_sum (fun _ _ => Nat.zero_le _) _
        (List.mem_map_of_mem (f := fun e : Endpoint => r.replicas * e.weight.toNatClampNeg) he)
      rw [List.length_map, htotal] at hplaces
      omega

theorem shared_of_pointed : r.Shared := by
  obtain ⟨hfull, htotal⟩ := full_iff_total_iff h hroster
  have hcount : ∀ e ∈ r.items,
      ((r.replicas * e.weight.toNatClampNeg : Nat) : Int) = r.replicas * e.weight.toInt :=
    fun e he => natCast_replicas_mul (hroster.positive e he)
  refine ⟨(sum_length_ownedBy h hroster).symm, ?_, ?_, ?_, ?_, ?_⟩
  · intro e he
    have howned := length_ownedBy_le h hroster he
    rw [length_ownPoints, toNat_pointCount (hroster.positive e he)] at howned
    rw [← hcount e he]
    exact Int.ofNat_le.2 (howned.trans (Nat.mod_le _ _))
  · rw [← hfull]
    refine forall₂_congr fun e he => ?_
    rw [← hcount e he, Nat.cast_inj]
  · have hsum : (r.items.map fun e => (r.replicas : Int) * e.weight.toInt).sum =
        ((r.items.map fun e => r.replicas * e.weight.toNatClampNeg).sum : Nat) := by
      rw [Nat.cast_list_sum, List.map_map]
      exact congrArg List.sum (List.map_congr_left fun e he => (hcount e he).symm)
    rw [hsum, Nat.cast_inj, htotal]
  · exact fun e he place => locate_of_mem_ownedBy h hroster he
  · intro e he
    constructor
    · rintro ⟨draw, hnext⟩
      obtain ⟨point, howner, -⟩ := (locate_eq_some_iff h).1 hnext
      exact List.ne_nil_of_mem ((mem_ownedBy_iff h hroster he).2 howner)
    · intro hne
      obtain ⟨place, hplace⟩ := List.exists_mem_of_ne_nil _ hne
      refine ⟨place.toNat, ?_⟩
      rw [next, UInt32.ofNat_toNat]
      exact locate_of_mem_ownedBy h hroster he hplace

/-- Where points are apart every endpoint has its full share. -/
theorem full_of_apart (hapart : r.Apart) : r.Full := by
  have hshared := shared_of_pointed h hroster
  have howned := hshared.full_iff.2 hapart
  refine ⟨howned, hshared.total_iff.2 hapart, ?_⟩
  intro e he
  have hlength : 0 < ((r.ownedBy e).length : Int) := by
    rw [howned e he]
    exact Int.mul_pos (Int.natCast_pos.2 h.1) (Integer.toInt_pos.2 (hroster.positive e he))
  obtain ⟨place, hplace⟩ := List.exists_mem_of_length_pos (Int.natCast_pos.1 hlength)
  obtain ⟨point, hpoint, rfl⟩ := mem_points_of_mem_ownedBy hplace
  exact ⟨point, hpoint, locate_of_mem_ownedBy h hroster he hplace⟩

/-- An endpoint owns nothing if a later one of its name has no fewer points. -/
theorem ownedBy_eq_nil_of_name (hitems : r.items = before ++ e :: rest) {x : Endpoint}
    (hx : x ∈ rest) (hname : x.name = e.name)
    (hcount : (pointCount r.replicas e.weight).toNat ≤ (pointCount r.replicas x.weight).toNat) :
    r.ownedBy e = [] := by
  rw [List.eq_nil_iff_forall_not_mem]
  intro place hplace
  obtain ⟨hpoint, hlater⟩ := (mem_ownedBy_iff_of_split h hroster hitems).1 hplace
  obtain ⟨i, hi, rfl⟩ := List.mem_map.1 hpoint
  apply hlater x hx
  have hi := List.mem_range.1 hi
  exact List.mem_map.2 ⟨i, List.mem_range.2 (hi.trans_le hcount), by rw [hname]⟩

end Pointed

end HashRing

namespace Family

/-- Behind any calls on an empty ring and its clones, the places of each of them are shared out by
the last points, and every endpoint has its full share where points are apart. -/
theorem shares_after (replicas : Nat) (calls : List (Nat × Call)) :
    ∀ m ∈ (after ⟨[.empty replicas .hashRing]⟩ calls).members, ∃ r : HashRing,
      m = .hashRing r ∧ r.replicas = max replicas 1 ∧ r.Shared ∧ (r.Apart → r.Full) := by
  intro m hm
  obtain ⟨r, rfl, hreplicas, hpointed, hroster⟩ :=
    (reached_after replicas .hashRing calls m hm).exists_hashRing
  exact ⟨r, rfl, hreplicas, HashRing.shared_of_pointed hpointed hroster,
    HashRing.full_of_apart hpointed hroster⟩

/-- A ring of two replicas for endpoints of two names has six places in all. -/
theorem shares_after_pair :
    .hashRing (.rebuild 2 pair) ∈ (after ⟨[.empty 2 .hashRing]⟩ pairCalls).members ∧
      (HashRing.rebuild 2 pair).Apart ∧ (HashRing.rebuild 2 pair).points.length = 6 ∧
      (HashRing.rebuild 2 pair).Shared ∧ (HashRing.rebuild 2 pair).Full := by
  have hmem : .hashRing (.rebuild 2 pair) ∈
      (after ⟨[.empty 2 .hashRing]⟩ pairCalls).members := List.mem_cons_self
  obtain ⟨r, hr, -, hshared, hfull⟩ := shares_after 2 pairCalls _ hmem
  obtain rfl : HashRing.rebuild 2 pair = r := Balancer.hashRing.inj hr
  have hapart : (HashRing.rebuild 2 pair).Apart := ⟨by decide, by decide +kernel⟩
  have htotal := (hfull hapart).total
  exact ⟨hmem, hapart, Int.ofNat_inj.1 htotal, hshared, hfull hapart⟩

/-- Two endpoints of one name, in two shards. -/
def namesakes : List Endpoint :=
  [⟨"m0", "s0", 1, "", "", "", ""⟩, ⟨"m0", "s1", 1, "", "", "", ""⟩]

/-- A ring of one replica to which these endpoints are added has one place in all and never selects
the first of them. -/
theorem not_shares_after :
    (¬ ∀ (replicas : Nat) (calls : List (Nat × Call)),
      ∀ m ∈ (after ⟨[.empty replicas .hashRing]⟩ calls).members, ∃ r : HashRing,
        m = .hashRing r ∧ r.Full) ∧
    .hashRing (.rebuild 1 namesakes) ∈
      (after ⟨[.empty 1 .hashRing]⟩ (namesakes.map fun e => (0, .add e))).members ∧
    (HashRing.rebuild 1 namesakes).points.length = 1 ∧
    ∀ draw, (HashRing.rebuild 1 namesakes).next draw ≠ namesakes[0]? := by
  have hmem : .hashRing (.rebuild 1 namesakes) ∈
      (after ⟨[.empty 1 .hashRing]⟩ (namesakes.map fun e => (0, .add e))).members :=
    List.mem_cons_self
  obtain ⟨r, hr, -, hpointed, hroster⟩ := (reached_after 1 .hashRing _ _ hmem).exists_hashRing
  obtain rfl : HashRing.rebuild 1 namesakes = r := Balancer.hashRing.inj hr
  -- the first one has no place, since all its points are also those of the second one
  have hitems : (HashRing.rebuild 1 namesakes).items = [] ++ namesakes[0] :: [namesakes[1]] := rfl
  have hnone := HashRing.ownedBy_eq_nil_of_name hpointed hroster hitems List.mem_cons_self rfl
    (le_refl _)
  refine ⟨?_, hmem, by cbv, ?_⟩
  · intro h
    obtain ⟨r, hr, hfull⟩ := h _ _ _ hmem
    obtain rfl : HashRing.rebuild 1 namesakes = r := Balancer.hashRing.inj hr
    have howned := hfull.owned namesakes[0] List.mem_cons_self
    rw [hnone] at howned
    exact absurd howned (by decide)
  · intro draw hnext
    exact (HashRing.shared_of_pointed hpointed hroster).selected_iff namesakes[0]
      List.mem_cons_self |>.1 ⟨draw, hnext⟩ hnone

end Family

end ShardRouting
