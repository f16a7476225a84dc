import Mathlib
import ShardRouting.Proofs.Groups
import ShardRouting.Proofs.PhysicalTables

/-!
# Reads by shard

A statement that reads is sent once to each shard that holds some of its targets. The targets may
come in any order, and those of one shard need not stand together; a shard with one of them is asked
for that table, and one with several for a union of them. No target is lost on the way, and none is
read twice.

* `Fragment.ReadsTables`: the text of a read, from the names of the physical tables in it.
* `Plan.Covers`: what fragments are to the targets that they read.
* `Catalog.covers_of_select`: the plan of a read covers its route once, and of a copied table it
  reads one copy.
-/

namespace ShardRouting

/-! ### Texts -/

namespace Statement

/-- The text that reads one physical table. -/
def readText (s : Statement) (name : String) : String :=
  "SELECT " ++ s.selectList.getD "*" ++ " FROM " ++ name ++ s.alias.elim "" (" " ++ ·) ++
    s.condition.elim "" fun c => " WHERE " ++ c.sql

/-- The text of the order and the limit of all that is read. -/
def endText (s : Statement) : String :=
  s.orderBy.elim "" (" ORDER BY " ++ ·) ++ s.limit.elim "" fun c => " LIMIT " ++ c.sql

end Statement

/-- A fragment reads the physical tables of some names: one of them by itself, several as the
branches of a derived table. -/
def Fragment.ReadsTables (f : Fragment) (s : Statement) (names : List String) : Prop :=
  (∃ name, names = [name] ∧ f.sql = s.readText name ++ s.endText) ∨
    2 ≤ names.length ∧ f.sql = "SELECT * FROM (" ++
      " UNION ALL ".intercalate (names.map s.readText) ++ ") " ++ s.alias.getD s.table ++ s.endText

namespace Plan

variable {s : Statement} {draw : Nat}

theorem branchText_eq (s : Statement) (t : Target) :
    branchText s t = s.readText t.physicalName := by
  unfold branchText tableText whereText clauseText Statement.readText
  cases s.alias <;> cases s.condition <;> simp [String.append_assoc]

theorem orderText_eq (s : Statement) : orderText s = s.endText := by
  unfold orderText limitText clauseText Statement.endText
  cases s.orderBy <;> cases s.limit <;> simp

/-- The fragment for the targets of a shard reads these, if there are any. -/
theorem readsTables_selectFragment (s : Statement) (shard : String) {targets : List Target}
    (h : targets ≠ []) :
    (selectFragment s shard targets).ReadsTables s (targets.map Target.physicalName) := by
  match targets with
  | [] => exact absurd rfl h
  | [t] =>
    refine Or.inl ⟨t.physicalName, rfl, ?_⟩
    show branchText s t ++ orderText s = _
    rw [branchText_eq, orderText_eq]
  | t :: u :: rest =>
    refine Or.inr ⟨by simp, ?_⟩
    have hbranches : (t :: u :: rest).map (branchText s) =
        ((t :: u :: rest).map Target.physicalName).map s.readText := by
      rw [List.map_map]
      exact List.map_congr_left fun t _ => branchText_eq s t
    rw [← hbranches, ← orderText_eq]
    rfl

/-! ### Fragments by shard -/

/-- What fragments are to the targets that they read: there is one for each shard with targets, in
the order in which the shards first appear, and it reads all targets of its shard in their order. -/
structure Covers (s : Statement) (targets : List Target) (fragments : List Fragment) : Prop where
  /-- No two fragments go to one shard. -/
  distinct : (fragments.map Fragment.shard).Nodup
  /-- Each shard with targets has a fragment, and no other shard has. -/
  shards : ∀ shard, shard ∈ fragments.map Fragment.shard ↔ shard ∈ targets.map Target.shard
  /-- The shards come in the order of their first targets. -/
  ordered : (fragments.map Fragment.shard).Pairwise fun a b =>
    (targets.map Target.shard).idxOf a < (targets.map Target.shard).idxOf b
  /-- A fragment reads the targets of its shard, in their order. -/
  grouped : ∀ f ∈ fragments, f.targets = targets.filter fun t => t.shard == f.shard
  /-- All targets are read, each once. -/
  once : (fragments.flatMap Fragment.targets).Perm targets
  /-- A fragment names the physical tables of its targets. -/
  texts : ∀ f ∈ fragments, f.ReadsTables s (f.targets.map Target.physicalName)

/-- The fragment for the targets of one shard among others. -/
def shardFragment (s : Statement) (targets : List Target) (shard : String) : Fragment :=
  selectFragment s shard (targets.filter fun t => t.shard == shard)

theorem fragments_eq (s : Statement) (r : Route) :
    (r.byShard.map fun (shard, targets) => selectFragment s shard targets) =
      (r.targets.map Target.shard).eraseDups.map (shardFragment s r.targets) := by
  rw [Route.byShard, Route.groupByShard, List.map_map]
  rfl

/-- One target has one fragment. -/
theorem fragments_singleton (s : Statement) (t : Target) :
    (({ targets := [t] } : Route).byShard.map fun (shard, targets) =>
      selectFragment s shard targets) = [selectFragment s t.shard [t]] := by
  rw [fragments_eq]
  show [shardFragment s [t] t.shard] = _
  simp [shardFragment]

/-- Fragments by shard cover the targets that they are made for. -/
theorem covers_shardFragments (s : Statement) (targets : List Target) :
    Covers s targets ((targets.map Target.shard).eraseDups.map (shardFragment s targets)) := by
  have hshards : ((targets.map Target.shard).eraseDups.map (shardFragment s targets)).map
      Fragment.shard = (targets.map Target.shard).eraseDups := by
    rw [List.map_map]
    exact List.map_id _
  constructor
  case distinct =>
    rw [hshards]
    exact nodup_eraseDups _
  case shards =>
    intro shard
    rw [hshards, List.mem_eraseDups]
  case ordered =>
    rw [hshards]
    exact pairwise_idxOf_eraseDups _
  case grouped =>
    intro f hf
    obtain ⟨shard, -, rfl⟩ := List.mem_map.1 hf
    rfl
  case once =>
    rw [List.flatMap_map]
    exact perm_flatMap_eraseDups Target.shard targets
  case texts =>
    intro f hf
    obtain ⟨shard, hshard, rfl⟩ := List.mem_map.1 hf
    obtain ⟨t, ht, rfl⟩ := List.mem_map.1 (List.mem_eraseDups.1 hshard)
    apply readsTables_selectFragment
    exact List.ne_nil_of_mem (List.mem_filter.2 ⟨ht, beq_self_eq_true _⟩)

/-- What is not copied is read along its whole route. -/
theorem readRoute_of_not_broadcast {r : Route} (h : r.broadcast = false) :
    readRoute draw r = r := by
  rw [readRoute, if_neg (by rw [h]; exact Bool.false_ne_true)]

/-- Of copies one is read, whichever is drawn. -/
theorem exists_readRoute_eq (draw : Nat) {r : Route} (h : r.broadcast = true)
    (hne : r.targets ≠ []) : ∃ t ∈ r.targets, readRoute draw r = { targets := [t] } := by
  have hlt : draw % r.targets.length < r.targets.length :=
    Nat.mod_lt _ (List.length_pos_of_ne_nil hne)
  refine ⟨_, List.getElem_mem hlt, ?_⟩
  rw [readRoute, if_pos h, List.getElem?_eq_getElem hlt]

end Plan

/-! ### Routes -/

namespace Catalog

variable {registry : Registry} {settings : Settings} {c : Catalog} {table : String} {t : Table}
  {route : Route} {conditions : List Condition}

/-- A table of accepted settings has copies if it is copied at all. -/
theorem copies_ne_nil (hbuild : build registry settings = .ok c) (ht : t ∈ c.tables)
    {shards : List String} (hcopied : t.placement = .copied shards) : shards ≠ [] := by
  obtain ⟨routers, -, h⟩ := bind_eq_ok_iff.1 hbuild
  obtain ⟨tables, htables, h⟩ := bind_eq_ok_iff.1 h
  cases h
  obtain ⟨ts, -, -, hplace⟩ :=
    (exists_settings_of_mem_buildTables htables ht).resolve_left List.not_mem_nil
  rw [hcopied] at hplace
  unfold buildPlacement at hplace
  split at hplace
  · split at hplace <;> cases hplace
  · obtain ⟨-, -, h⟩ := bind_eq_ok_iff.1 hplace
    cases h
    exact List.cons_ne_nil _ _
  · obtain ⟨-, -, h⟩ := bind_eq_ok_iff.1 hplace
    cases h
  · cases hplace

/-- The copies of a table are a route of copies. -/
theorem routeConditions_copied (hfind : c.find table = .ok t) {shards : List String}
    (hcopied : t.placement = .copied shards) (conditions : List Condition) :
    c.routeConditions table conditions =
      .ok { targets := shards.map fun shard => ⟨shard, t.name, ""⟩, broadcast := true } := by
  rw [routeConditions, hfind]
  simp only [bind, Except.bind, hcopied, Table.allTargets]

/-- A route is one of copies only where the table is copied, and all there is only where a router
spreads it over its partition. -/
theorem kind_of_routeConditions (hfind : c.find table = .ok t)
    (h : c.routeConditions table conditions = .ok route) :
    (route.broadcast = true → ∃ shards, t.placement = .copied shards) ∧
      (route.fullScan = true → ∃ r, t.placement = .routed r ∧
        route.targets = r.partition.map fun part => ⟨part.shard, t.name, part.suffix⟩) := by
  cases hp : t.placement with
  | whole shard =>
    rw [routeConditions, hfind] at h
    simp only [bind, Except.bind, hp] at h
    cases h
    exact ⟨fun h => absurd h Bool.false_ne_true, fun h => absurd h Bool.false_ne_true⟩
  | copied shards =>
    rw [routeConditions_copied hfind hp] at h
    cases h
    exact ⟨fun _ => ⟨shards, rfl⟩, fun h => absurd h Bool.false_ne_true⟩
  | routed r =>
    rw [routeConditions_routed hfind hp] at h
    split at h
    · obtain ⟨targets, -, h⟩ := bind_eq_ok_iff.1 h
      cases h
      exact ⟨fun h => absurd h Bool.false_ne_true, fun h => absurd h Bool.false_ne_true⟩
    · cases h
      exact ⟨fun h => absurd h Bool.false_ne_true, fun _ => ⟨r, rfl, rfl⟩⟩

/-! ### Plans of reads -/

/-- The plan of a statement that reads: of a table that is not copied it covers the route of the
conditions, the targets of which are different physical tables of that table, and after a full scan
the whole partition; of a copied table it reads one of the copies. -/
theorem covers_of_select (hbuild : build registry settings = .ok c) {s : Statement} {draw : Nat}
    {p : Plan} (hkind : s.kind = .select) (hplan : Plan.ofStatement c draw s = .ok p) :
    p.broadcast = false ∧ ∃ t, c.find s.table = .ok t ∧
      ((∀ shards, t.placement ≠ .copied shards) →
        ∃ route, c.routeConditions s.table s.conditions = .ok route ∧
          Plan.Covers s route.targets p.fragments ∧
          route.targets.Sublist t.allTargets ∧ (route.targets.map Target.address).Nodup ∧
          (route.fullScan = true → ∃ r, t.placement = .routed r ∧
            route.targets = r.partition.map fun part => ⟨part.shard, t.name, part.suffix⟩)) ∧
      ∀ shards, t.placement = .copied shards → ∃ shard ∈ shards, ∃ f, p.fragments = [f] ∧
        f.shard = shard ∧ f.targets = [⟨shard, t.name, ""⟩] ∧ f.ReadsTables s [t.name] := by
  rw [Plan.ofStatement_eq_ok_iff] at hplan
  obtain ⟨route, hroute, rfl⟩ := (Plan.routed_select_iff hkind).1 hplan
  obtain ⟨t, hfind, -⟩ := bind_eq_ok_iff.1 hroute
  obtain ⟨ht, -⟩ := mem_of_find hfind
  obtain ⟨hbroadcast, hfull⟩ := kind_of_routeConditions hfind hroute
  refine ⟨rfl, t, hfind, ?_, ?_⟩
  · intro hnot
    have hone : route.broadcast = false := by
      by_contra hcopies
      obtain ⟨shards, hshards⟩ := hbroadcast (Bool.not_eq_false _ ▸ hcopies)
      exact hnot shards hshards
    have hsub := sublist_of_routeConditions hfind hroute
    have hnodup := (nodup_address_iff hbuild ht).2 fun shards hshards =>
      absurd hshards (hnot shards)
    refine ⟨route, hroute, ?_, hsub, (hsub.map _).nodup hnodup, hfull⟩
    show Plan.Covers s route.targets ((Plan.readRoute draw route).byShard.map _)
    rw [Plan.readRoute_of_not_broadcast hone, Plan.fragments_eq]
    exact Plan.covers_shardFragments s route.targets
  · intro shards hcopied
    rw [routeConditions_copied hfind hcopied] at hroute
    cases hroute
    have hne : (shards.map fun shard => (⟨shard, t.name, ""⟩ : Target)) ≠ [] :=
      List.map_eq_nil_iff.not.2 (copies_ne_nil hbuild ht hcopied)
    obtain ⟨target, htarget, hread⟩ := Plan.exists_readRoute_eq draw
      (r := { targets := shards.map fun shard => ⟨shard, t.name, ""⟩, broadcast := true }) rfl hne
    obtain ⟨shard, hshard, rfl⟩ := List.mem_map.1 htarget
    refine ⟨shard, hshard, Plan.selectFragment s shard [⟨shard, t.name, ""⟩], ?_, rfl, rfl, ?_⟩
    · show (Plan.readRoute draw _).byShard.map _ = _
      rw [hread]
      exact Plan.fragments_singleton s _
    · have hreads := Plan.readsTables_selectFragment s shard
        (List.cons_ne_nil (⟨shard, t.name, ""⟩ : Target) [])
      have hname : (⟨shard, t.name, ""⟩ : Target).physicalName = t.name := String.append_empty
      rwa [List.map_singleton, hname] at hreads

/-- Settings with a table of which two shards hold parts in turn, and one that is copied to both. -/
def turnSettings : Settings where
  shards := [{ name := "s0" }, { name := "s1" }]
  routers := [{ id := "by-user"
                partition := [{ shard := "s0", suffixes := ["_0"] },
                  { shard := "s1", suffixes := ["_1"] }, { shard := "s0", suffixes := ["_2"] }]
                rule := { columns := [{ name := "user_id" }], algorithm := some "mod" } }]
  tables := [{ name := "orders", router := some "by-user" },
    { name := "regions", broadcast := some ["s0", "s1"] }]

/-- The catalog of these settings. -/
def turnCatalog : Catalog where
  tables := [
    ⟨"orders", .routed ⟨"by-user", [⟨"s0", "_0"⟩, ⟨"s1", "_1"⟩, ⟨"s0", "_2"⟩],
      ⟨[{ name := "user_id" }], .algorithm KeyAlgorithm.remainder []⟩⟩⟩,
    ⟨"regions", .copied ["s0", "s1"]⟩]

/-- A statement that reads all rows of a table. -/
def readAll (table : String) : Statement where
  kind := .select
  table := table
  «alias» := some "t"

/-- The parts that two shards hold in turn are read by two fragments, one of them for two tables,
and the copied table by one. -/
theorem covers_of_select_turns : ∃ p q, Plan.ofStatement turnCatalog 0 (readAll "orders") = .ok p ∧
    Plan.ofStatement turnCatalog 1 (readAll "regions") = .ok q ∧
    (p.fragments.map fun f => (f.shard, f.targets.map Target.physicalName)) =
      [("s0", ["orders_0", "orders_2"]), ("s1", ["orders_1"])] ∧
    Plan.Covers (readAll "orders")
      [⟨"s0", "orders", "_0"⟩, ⟨"s1", "orders", "_1"⟩, ⟨"s0", "orders", "_2"⟩] p.fragments ∧
    ∃ f, q.fragments = [f] ∧ f.ReadsTables (readAll "regions") ["regions"] := by
  have hbuild : build Registry.builtin turnSettings = .ok turnCatalog := by rfl
  obtain ⟨p, hp, hfragments⟩ : ∃ p, Plan.ofStatement turnCatalog 0 (readAll "orders") = .ok p ∧
      (p.fragments.map fun f => (f.shard, f.targets.map Target.physicalName)) =
        [("s0", ["orders_0", "orders_2"]), ("s1", ["orders_1"])] := ⟨_, rfl, by decide +kernel⟩
  obtain ⟨q, hq⟩ : ∃ q, Plan.ofStatement turnCatalog 1 (readAll "regions") = .ok q := ⟨_, rfl⟩
  refine ⟨p, q, hp, hq, hfragments, ?_, ?_⟩
  · obtain ⟨-, t, hfind, hcovers, -⟩ := covers_of_select hbuild rfl hp
    cases hfind
    obtain ⟨route, hroute, hcovers, -⟩ := hcovers nofun
    cases hroute
    exact hcovers
  · obtain ⟨-, t, hfind, -, hcopy⟩ := covers_of_select hbuild rfl hq
    cases hfind
    obtain ⟨shard, -, f, hf, -, -, hreads⟩ := hcopy _ rfl
    exact ⟨f, hf, hreads⟩

end Catalog

end ShardRouting
