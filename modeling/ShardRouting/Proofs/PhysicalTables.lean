import Mathlib
import ShardRouting.Proofs.Accepted
import ShardRouting.Proofs.Candidates
import ShardRouting.Proofs.Plans

/-!
# Physical tables

A database knows a physical table by its shard and its name there. Two targets of one logical table
at the same address are one physical table, and a write that reaches both is executed twice. The
settings of a router are checked for that; a list of shards that a table is copied to is not.

* `Target.address`: the shard and the name of a physical table.
* `Catalog.nodup_address_of_build`: the physical tables of a table are distinct exactly if it is not
  copied to one shard twice, and then a write on conditions, or of one row, has at most one fragment
  for each of them.
* `Catalog.not_nodup_address_of_build`: a table that is copied to one shard twice.
-/

namespace ShardRouting

/-- Where a physical table is found: its shard and its name there. -/
def Target.address (t : Target) : String × String :=
  (t.shard, t.physicalName)

/-! ### Targets of one table -/

namespace Router

variable {r : Router} {table : String}

/-- Different parts lead to different addresses. -/
theorem address_targetOf_injective (table : String) :
    Function.Injective fun part => (targetOf table part).address := by
  rintro ⟨shard, suffix⟩ ⟨shard', suffix'⟩ h
  obtain ⟨hshard, hname⟩ := Prod.mk.inj h
  obtain rfl : suffix = suffix' := (String.append_right_inj table).1 hname
  obtain rfl : shard = shard' := hshard
  rfl

/-- The targets at some positions come in the order of the partition. -/
theorem targetsAt_sublist_allTargets (r : Router) (table : String) (p : Nat → Bool) :
    (r.targetsAt table p).Sublist (r.allTargets table) := by
  have hall : r.allTargets table =
      r.partition.zipIdx.map fun entry => targetOf table entry.1 := by
    rw [allTargets]
    nth_rewrite 1 [← List.zipIdx_map_fst 0 r.partition]
    rw [List.map_map]
    rfl
  rw [targetsAt, hall]
  exact List.filter_sublist.map _

/-- A row goes to targets of its table, in the order of the partition. -/
theorem sublist_of_route {row : Row} {targets : List Target}
    (h : r.route table row = .ok targets) : targets.Sublist (r.allTargets table) := by
  obtain ⟨positions, -, h⟩ := bind_eq_ok_iff.1 h
  cases h
  exact targetsAt_sublist_allTargets r table _

/-- Candidates go to targets of their table, in the order of the partition. -/
theorem sublist_of_routeAll {cands : List (String × List Value)} {targets : List Target}
    (h : r.routeAll table cands = .ok targets) : targets.Sublist (r.allTargets table) := by
  unfold routeAll at h
  split at h
  · cases h
    exact List.nil_sublist _
  · obtain ⟨positions, -, h⟩ := bind_eq_ok_iff.1 h
    cases h
    exact targetsAt_sublist_allTargets r table _

end Router

namespace Catalog

variable {registry : Registry} {s : Settings} {c : Catalog} {table : String} {t : Table}
  {route : Route}

/-- A row goes to targets of its table. -/
theorem sublist_of_routeRow (hfind : c.find table = .ok t) {row : Row}
    (h : c.routeRow table row = .ok route) : route.targets.Sublist t.allTargets := by
  rw [routeRow, hfind] at h
  simp only [bind, Except.bind] at h
  cases hp : t.placement with
  | whole shard =>
    rw [hp] at h
    cases h
    exact List.Sublist.refl _
  | copied shards =>
    rw [hp] at h
    cases h
    exact List.Sublist.refl _
  | routed r =>
    have hrouted := routeRow_routed hfind hp row
    rw [routeRow, hfind] at hrouted
    simp only [bind, Except.bind] at hrouted
    rw [hrouted] at h
    obtain ⟨targets, htargets, h⟩ := bind_eq_ok_iff.1 h
    split at h
    · cases h
      rw [Table.allTargets, hp]
      exact Router.sublist_of_route htargets
    · cases h

/-- The rows that meet conditions are looked for in targets of their table. -/
theorem sublist_of_routeConditions (hfind : c.find table = .ok t) {conditions : List Condition}
    (h : c.routeConditions table conditions = .ok route) :
    route.targets.Sublist t.allTargets := by
  by_cases hrouted : ∃ r, t.placement = .routed r
  · obtain ⟨r, hr⟩ := hrouted
    have hall : t.allTargets = r.allTargets t.name := by rw [Table.allTargets, hr]
    rw [routeConditions_routed hfind hr] at h
    rw [hall]
    split at h
    · obtain ⟨targets, htargets, h⟩ := bind_eq_ok_iff.1 h
      cases h
      exact Router.sublist_of_routeAll htargets
    · cases h
      exact List.Sublist.refl _
  · rw [routeConditions_eq_routeRow hfind (fun r hr => hrouted ⟨r, hr⟩) conditions []] at h
    exact sublist_of_routeRow hfind h

/-- No part of an accepted router is listed twice. -/
theorem nodup_partition_of_mem (hbuild : build registry s = .ok c) (ht : t ∈ c.tables) {r : Router}
    (hr : t.placement = .routed r) : r.partition.Nodup := by
  obtain ⟨rs, -, hrouter⟩ := exists_settings_of_mem hbuild ht hr
  exact (Router.build_eq_ok_iff.1 hrouter).2.2.1

/-- The physical tables of an accepted table are distinct exactly if it is not copied to one shard
twice. -/
theorem nodup_address_iff (hbuild : build registry s = .ok c) (ht : t ∈ c.tables) :
    (t.allTargets.map Target.address).Nodup ↔
      ∀ shards, t.placement = .copied shards → shards.Nodup := by
  unfold Table.allTargets
  cases hp : t.placement with
  | whole shard => exact ⟨fun _ => nofun, fun _ => List.nodup_singleton _⟩
  | routed r =>
    refine ⟨fun _ => nofun, fun _ => ?_⟩
    show ((r.allTargets t.name).map Target.address).Nodup
    rw [Router.allTargets, List.map_map]
    exact (nodup_partition_of_mem hbuild ht hp).map (Router.address_targetOf_injective t.name)
  | copied shards =>
    have hinjective : Function.Injective fun shard => (⟨shard, t.name, ""⟩ : Target).address :=
      fun _ _ h => (Prod.mk.inj h).1
    rw [List.map_map]
    constructor
    · rintro h _ ⟨⟩
      exact (List.nodup_map_iff hinjective).1 h
    · intro h
      exact (List.nodup_map_iff hinjective).2 (h shards rfl)

end Catalog

/-! ### Fragments for the targets -/

namespace Plan

variable {c : Catalog} {draw : Nat} {s : Statement} {p : Plan} {t : Table}

/-- A write on conditions, or of one row, has one fragment for each of some targets of its table, in
their order. -/
theorem exists_targets_of_ofStatement (h : ofStatement c draw s = .ok p)
    (hfind : c.find s.table = .ok t)
    (hkind : s.kind = .update ∨ s.kind = .delete ∨
      (s.kind = .insert ∨ s.kind = .merge) ∧ s.rows.length = 1) :
    ∃ (targets : List Target) (f : Target → Fragment), targets.Sublist t.allTargets ∧
      p.fragments = targets.map f ∧ ∀ t, (f t).targets = [t] ∧ (f t).shard = t.shard := by
  rw [ofStatement_eq_ok_iff] at h
  rcases hkind with hk | hk | ⟨hk, hone⟩
  · obtain ⟨-, -, route, hroute, rfl⟩ := (routed_update_iff hk).1 h
    exact ⟨route.targets, updateFragment s, Catalog.sublist_of_routeConditions hfind hroute, rfl,
      fun _ => ⟨rfl, rfl⟩⟩
  · obtain ⟨route, hroute, rfl⟩ := (routed_delete_iff hk).1 h
    exact ⟨route.targets, deleteFragment s, Catalog.sublist_of_routeConditions hfind hroute, rfl,
      fun _ => ⟨rfl, rfl⟩⟩
  · obtain ⟨-, -, hrows⟩ := (routed_rows_iff hk).1 h
    obtain ⟨cells, hcells⟩ := List.length_eq_one_iff.1 hone
    rw [hcells] at hrows
    obtain ⟨routes, hroutes, hfragments, -⟩ := rowFragments_eq_ok_iff.1 hrows
    cases hroutes with
    | cons hroute hnil =>
      cases hnil
      refine ⟨_, insertFragment s cells, Catalog.sublist_of_routeRow hfind hroute, ?_,
        fun _ => ⟨rfl, rfl⟩⟩
      rw [hfragments]
      exact List.append_nil _

end Plan

/-! ### Distinct physical tables -/

namespace Catalog

/-- The physical tables of a table of accepted settings are distinct exactly if it is not copied to
one shard twice. If they are, a statement that changes or removes rows, or that adds one, has at
most one fragment for each of them, and each fragment is for one physical table of its shard. -/
theorem nodup_address_of_build {registry : Registry} {s : Settings} {c : Catalog}
    (hbuild : build registry s = .ok c) {t : Table} (ht : t ∈ c.tables) :
    ((t.allTargets.map Target.address).Nodup ↔
      ∀ shards, t.placement = .copied shards → shards.Nodup) ∧
    ((t.allTargets.map Target.address).Nodup → ∀ draw stmt p, c.find stmt.table = .ok t →
      (stmt.kind = .update ∨ stmt.kind = .delete ∨
        (stmt.kind = .insert ∨ stmt.kind = .merge) ∧ stmt.rows.length = 1) →
      Plan.ofStatement c draw stmt = .ok p →
        ((p.fragments.flatMap Fragment.targets).map Target.address).Nodup ∧
          ∀ f ∈ p.fragments, ∃ target ∈ t.allTargets, f.targets = [target] ∧
            f.shard = target.shard) := by
  refine ⟨nodup_address_iff hbuild ht, fun hnodup draw stmt p hfind hkind hplan => ?_⟩
  obtain ⟨targets, f, hsub, hfragments, hf⟩ :=
    Plan.exists_targets_of_ofStatement hplan hfind hkind
  rw [hfragments]
  constructor
  · rw [List.flatMap_map, List.flatMap_congr fun t _ => (hf t).1, List.flatMap_singleton']
    exact (hsub.map _).nodup hnodup
  · intro g hg
    obtain ⟨target, htarget, rfl⟩ := List.mem_map.1 hg
    exact ⟨target, hsub.subset htarget, hf target⟩

/-- Settings with a table that is spread over three physical tables in two shards, and one that is
copied to both. -/
def regionSettings : Settings where
  shards := [{ name := "s0" }, { name := "s1" }]
  routers := [{ id := "by-user"
                partition := [{ shard := "s0", suffixes := ["_0", "_1"] }, { shard := "s1" }]
                rule := { columns := [{ name := "user_id" }], algorithm := some "mod" } }]
  tables := [{ name := "orders", router := some "by-user" },
    { name := "regions", broadcast := some ["s0", "s1"] }]

/-- The router of these settings. -/
def regionRouter : Router where
  id := "by-user"
  partition := [⟨"s0", "_0"⟩, ⟨"s0", "_1"⟩, ⟨"s1", ""⟩]
  rule := ⟨[{ name := "user_id" }], .algorithm KeyAlgorithm.remainder []⟩

/-- The catalog of these settings. -/
def regionCatalog : Catalog where
  tables := [⟨"orders", .routed regionRouter⟩, ⟨"regions", .copied ["s0", "s1"]⟩]

/-- A statement that removes all rows of the copied table. -/
def regionDelete : Statement where
  kind := .delete
  table := "regions"

/-- The parts of a router are distinct tables, and of a table with two copies both are written
once. -/
theorem nodup_address_of_build_regions :
    (((⟨"orders", .routed regionRouter⟩ : Table).allTargets.map Target.address).Nodup) ∧
      ∃ p, Plan.ofStatement regionCatalog 0 regionDelete = .ok p ∧ p.fragments.length = 2 ∧
        ((p.fragments.flatMap Fragment.targets).map Target.address).Nodup := by
  have hbuild : build Registry.builtin regionSettings = .ok regionCatalog := by rfl
  have hroute : regionCatalog.routeConditions "regions" [] =
      .ok { targets := [⟨"s0", "regions", ""⟩, ⟨"s1", "regions", ""⟩], broadcast := true } := rfl
  have hplan : Plan.ofStatement regionCatalog 0 regionDelete = .ok ⟨.delete,
      [(⟨"s0", "regions", ""⟩ : Target), ⟨"s1", "regions", ""⟩].map
        (Plan.deleteFragment regionDelete), true⟩ :=
    Plan.ofStatement_eq_ok_iff.2 ((Plan.routed_delete_iff rfl).2 ⟨_, hroute, rfl⟩)
  have hregions : (⟨"regions", .copied ["s0", "s1"]⟩ : Table) ∈ regionCatalog.tables :=
    List.mem_cons_of_mem _ List.mem_cons_self
  obtain ⟨hiff, hplans⟩ := nodup_address_of_build hbuild hregions
  refine ⟨(nodup_address_of_build hbuild List.mem_cons_self).1.2 nofun, _, hplan, rfl, ?_⟩
  refine (hplans (hiff.2 ?_) 0 regionDelete _ rfl (Or.inr (Or.inl rfl)) hplan).1
  rintro shards ⟨⟩
  decide +kernel

/-- Settings with a table that is copied to one shard twice. -/
def twiceSettings : Settings where
  shards := [{ name := "s0" }]
  tables := [{ name := "regions", broadcast := some ["s0", "s0"] }]

/-- The catalog of these settings. -/
def twiceCatalog : Catalog where
  tables := [⟨"regions", .copied ["s0", "s0"]⟩]

/-- A table can be copied to one shard twice, and then its rows there are removed twice. -/
theorem not_nodup_address_of_build :
    (¬ ∀ (s : Settings) (c : Catalog) (t : Table), build Registry.builtin s = .ok c →
      t ∈ c.tables → (t.allTargets.map Target.address).Nodup) ∧
    ¬ ∀ (s : Settings) (c : Catalog) (draw : Nat) (stmt : Statement) (p : Plan),
      build Registry.builtin s = .ok c → stmt.kind = .delete →
        Plan.ofStatement c draw stmt = .ok p →
          ((p.fragments.flatMap Fragment.targets).map Target.address).Nodup := by
  have hbuild : build Registry.builtin twiceSettings = .ok twiceCatalog := by rfl
  constructor
  · intro h
    have hnodup := h twiceSettings twiceCatalog _ hbuild List.mem_cons_self
    exact absurd hnodup (by decide +kernel)
  · intro h
    have hroute : twiceCatalog.routeConditions "regions" [] =
        .ok { targets := [⟨"s0", "regions", ""⟩, ⟨"s0", "regions", ""⟩], broadcast := true } := rfl
    have hnodup := h twiceSettings twiceCatalog 0 regionDelete _ hbuild rfl
      (Plan.ofStatement_eq_ok_iff.2 ((Plan.routed_delete_iff rfl).2 ⟨_, hroute, rfl⟩))
    exact absurd hnodup (by decide +kernel)

end Catalog

end ShardRouting
