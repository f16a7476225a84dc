import Mathlib
import ShardRouting.Proofs.BoundTexts
import ShardRouting.Proofs.Executions
import ShardRouting.Proofs.HealthRuns
import ShardRouting.Proofs.Refusals

/-!
# The shards of plans

Tables and datasources are read from the same settings by two builders that know nothing of each
other: one checks that routers, copies and single tables name declared shards, the other gives every
declared shard a selector over datasources of its own. Together they leave no plan without a place
to run: whatever happened to the repository since, the shard of each fragment has a selector, the
members of the selector are datasources of that shard and of no other, and what is said about a
member reaches the selector that lists it.

* `Catalog.hasShard_of_mem_allTargets`: the physical tables of a catalog are on declared shards.
* `Repository.Hosts`: what a repository has for a shard; `Repository.Fits.hosts`: it has that for
  every shard of the settings it was built from, at any time.
* `World.seekFrom_ne_settings`: no search fails because its shard is not there.
* `Operation.OnShards`: tasks are on shards, and have not failed for want of one; every event keeps
  that.
* `planned_shards`: the agreement of the two builders, for all settings that both accept.
-/

namespace ShardRouting

/-- Settings declare a shard. -/
def Settings.HasShard (s : Settings) (shard : String) : Prop :=
  ∃ d ∈ s.shards, d.name = shard

/-! ### Physical tables -/

namespace Catalog

variable {registry : Registry} {s : Settings} {c : Catalog}

theorem checkShard_eq_ok_iff (owner : ShardOwner) {shard : String} :
    checkShard s owner shard = .ok () ↔ s.HasShard shard := by
  simp [checkShard, Settings.HasShard]

/-- The check of several shards is the check of each. -/
theorem checkShards_eq_ok_iff {owner : ShardOwner} {shards : List String} :
    checkShards s owner shards = .ok () ↔ ∀ shard ∈ shards, s.HasShard shard := by
  induction shards with
  | nil => exact ⟨nofun, fun _ => rfl⟩
  | cons shard shards ih =>
    rw [checkShards, bind_eq_ok_iff, List.forall_mem_cons, ← ih, ← checkShard_eq_ok_iff owner]
    exact ⟨fun ⟨_, hshard, hshards⟩ => ⟨hshard, hshards⟩,
      fun ⟨hshard, hshards⟩ => ⟨_, hshard, hshards⟩⟩

/-- The parts of an accepted router are on declared shards. -/
theorem hasShard_of_mem_buildRouters {built routers : List Router} {rest : List RouterSettings}
    (h : buildRouters registry s built rest = .ok routers)
    (hbuilt : ∀ r ∈ built, ∀ part ∈ r.partition, s.HasShard part.shard) :
    ∀ r ∈ routers, ∀ part ∈ r.partition, s.HasShard part.shard := by
  induction rest generalizing built with
  | nil =>
    cases h
    exact hbuilt
  | cons next rest ih =>
    obtain ⟨router, -, h⟩ := bind_eq_ok_iff.1 h
    obtain ⟨⟨⟩, hshards, h⟩ := bind_eq_ok_iff.1 h
    split at h
    · cases h
    · refine ih h fun r hr => ?_
      rcases List.mem_append.1 hr with hr | hr
      · exact hbuilt r hr
      · obtain rfl := List.mem_singleton.1 hr
        intro part hpart
        exact checkShards_eq_ok_iff.1 hshards _ (List.mem_map_of_mem hpart)

/-- The physical tables of an accepted placement are on declared shards, if routers are. -/
theorem hasShard_of_buildPlacement {routers : List Router} {name : String} {ts : TableSettings}
    {placement : Placement} (h : buildPlacement s routers name ts = .ok placement)
    (hrouters : ∀ r ∈ routers, ∀ part ∈ r.partition, s.HasShard part.shard) :
    ∀ target ∈ (⟨name, placement⟩ : Table).allTargets, s.HasShard target.shard := by
  intro target htarget
  unfold buildPlacement at h
  split at h
  · split at h
    · next router hfind =>
      cases h
      obtain ⟨part, hpart, rfl⟩ := List.mem_map.1 htarget
      exact hrouters router (List.mem_of_find?_eq_some hfind) part hpart
    · cases h
  · obtain ⟨⟨⟩, hshards, h⟩ := bind_eq_ok_iff.1 h
    cases h
    obtain ⟨shard, hshard, rfl⟩ := List.mem_map.1 htarget
    exact checkShards_eq_ok_iff.1 hshards shard hshard
  · obtain ⟨⟨⟩, hshard, h⟩ := bind_eq_ok_iff.1 h
    cases h
    obtain rfl := List.mem_singleton.1 htarget
    exact (checkShard_eq_ok_iff _).1 hshard
  · cases h

/-- The physical tables of a catalog are on shards that its settings declare. -/
theorem hasShard_of_mem_allTargets (h : build registry s = .ok c) {t : Table} (ht : t ∈ c.tables)
    {target : Target} (htarget : target ∈ t.allTargets) : s.HasShard target.shard := by
  obtain ⟨routers, hrouters, h⟩ := bind_eq_ok_iff.1 h
  obtain ⟨tables, htables, h⟩ := bind_eq_ok_iff.1 h
  cases h
  obtain ⟨ts, -, -, hplacement⟩ :=
    (exists_settings_of_mem_buildTables htables ht).resolve_left List.not_mem_nil
  exact hasShard_of_buildPlacement hplacement (hasShard_of_mem_buildRouters hrouters nofun)
    target htarget

end Catalog

namespace Plan

variable {c : Catalog} {draw : Nat} {s : Statement} {p : Plan} {f : Fragment}

/-- A fragment is on the shard of a physical table of its statement's table. -/
theorem exists_target_of_mem (h : ofStatement c draw s = .ok p) (hf : f ∈ p.fragments) :
    ∃ t ∈ c.tables, ∃ target ∈ t.allTargets, target.shard = f.shard := by
  have hconditions : ∀ {route : Route} {target : Target},
      c.routeConditions s.table s.conditions = .ok route → target ∈ route.targets →
      target.shard = f.shard → ∃ t ∈ c.tables, ∃ target ∈ t.allTargets, target.shard = f.shard := by
    intro route target hroute htarget hshard
    obtain ⟨t, hfind, -⟩ := bind_eq_ok_iff.1 hroute
    exact ⟨t, (Catalog.mem_of_find hfind).1, target,
      (Catalog.sublist_of_routeConditions hfind hroute).subset htarget, hshard⟩
  have hrows : s.kind = .insert ∨ s.kind = .merge →
      ∃ t ∈ c.tables, ∃ target ∈ t.allTargets, target.shard = f.shard := by
    intro hkind
    obtain ⟨-, -, hfragments⟩ := (routed_rows_iff hkind).1 (ofStatement_eq_ok_iff.1 h)
    obtain ⟨routes, hroutes, hfragments, -⟩ := rowFragments_eq_ok_iff.1 hfragments
    rw [hfragments] at hf
    obtain ⟨group, hgroup, hf⟩ := List.mem_flatten.1 hf
    rw [← List.map_uncurry_zip_eq_zipWith] at hgroup
    obtain ⟨⟨cells, route⟩, hpair, rfl⟩ := List.mem_map.1 hgroup
    obtain ⟨target, htarget, rfl⟩ := List.mem_map.1 hf
    have hroute := (List.forall₂_iff_zip.1 hroutes).2 hpair
    obtain ⟨t, hfind, -⟩ := bind_eq_ok_iff.1 hroute
    exact ⟨t, (Catalog.mem_of_find hfind).1, target,
      (Catalog.sublist_of_routeRow hfind hroute).subset htarget, rfl⟩
  cases hkind : s.kind with
  | insert => exact hrows (Or.inl hkind)
  | merge => exact hrows (Or.inr hkind)
  | update =>
    obtain ⟨-, -, route, hroute, rfl⟩ := (routed_update_iff hkind).1 (ofStatement_eq_ok_iff.1 h)
    obtain ⟨target, htarget, rfl⟩ := List.mem_map.1 hf
    exact hconditions hroute htarget rfl
  | delete =>
    obtain ⟨route, hroute, rfl⟩ := (routed_delete_iff hkind).1 (ofStatement_eq_ok_iff.1 h)
    obtain ⟨target, htarget, rfl⟩ := List.mem_map.1 hf
    exact hconditions hroute htarget rfl
  | select =>
    obtain ⟨route, hroute, rfl⟩ := (routed_select_iff hkind).1 (ofStatement_eq_ok_iff.1 h)
    obtain ⟨⟨shard, targets⟩, hentry, rfl⟩ := List.mem_map.1 hf
    obtain ⟨shard', hshard, heq⟩ := List.mem_map.1 hentry
    obtain ⟨rfl, -⟩ := Prod.mk.inj heq
    obtain ⟨target, htarget, rfl⟩ := List.mem_map.1 (List.mem_eraseDups.1 hshard)
    exact hconditions hroute (subset_of_readRoute htarget) rfl

/-- The fragments of a plan are on shards that the settings declare. -/
theorem hasShard_of_mem {registry : Registry} {settings : Settings}
    (hbuild : Catalog.build registry settings = .ok c) (h : ofStatement c draw s = .ok p)
    (hf : f ∈ p.fragments) : settings.HasShard f.shard := by
  obtain ⟨t, ht, target, htarget, hshard⟩ := exists_target_of_mem h hf
  exact hshard ▸ Catalog.hasShard_of_mem_allTargets hbuild ht htarget

/-- Tasks are on the shards of fragments. -/
theorem exists_fragment_of_mem_tasksFor {maxRows : Nat} {use : StatementUse} {t : Task}
    (ht : t ∈ Executor.tasksFor p maxRows use) : ∃ f ∈ p.fragments, f.shard = t.shard := by
  cases use with
  | query =>
    obtain ⟨f, hf, rfl⟩ := List.mem_map.1 ht
    exact ⟨f, hf, rfl⟩
  | update =>
    unfold Executor.tasksFor Executor.updateTasks at ht
    by_cases hrows : p.kind = .insert ∨ p.kind = .merge
    · rw [if_pos hrows] at ht
      obtain ⟨entry, hentry, rfl⟩ := List.mem_map.1 ht
      obtain ⟨key, hkey, rfl⟩ := List.mem_map.1 hentry
      obtain ⟨f, hf, rfl⟩ := List.mem_map.1 (List.mem_eraseDups.1 hkey)
      exact ⟨f, hf, rfl⟩
    · rw [if_neg hrows] at ht
      obtain ⟨f, hf, rfl⟩ := List.mem_map.1 ht
      exact ⟨f, hf, rfl⟩

/-- The tasks of a plan are on shards that the settings declare. -/
theorem hasShard_of_mem_tasksFor {registry : Registry} {settings : Settings}
    (hbuild : Catalog.build registry settings = .ok c) (h : ofStatement c draw s = .ok p)
    {maxRows : Nat} {use : StatementUse} {t : Task} (ht : t ∈ Executor.tasksFor p maxRows use) :
    settings.HasShard t.shard := by
  obtain ⟨f, hf, hshard⟩ := exists_fragment_of_mem_tasksFor ht
  exact hshard ▸ hasShard_of_mem hbuild h hf

end Plan

/-! ### Repositories -/

namespace Selector

/-- Some member of a selector takes writes. -/
def Writable (s : Selector) : Prop :=
  ∃ m ∈ s.members, 0 < m.writeWeight

/-- A selector that is built has a member that takes writes. -/
theorem writable_of_build {shard : String} {members : List MemberSettings}
    {balance : Option BalanceKind} {replicas : Option Nat} {s : Selector}
    (h : build shard members balance replicas = .ok s) : s.Writable := by
  obtain ⟨-, hmembers, -, hplan, -⟩ := of_build h
  unfold plan? at hplan
  split at hplan
  · cases hplan
  · next hcount =>
    obtain ⟨m, hm⟩ := List.exists_mem_of_length_pos (Nat.pos_of_ne_zero hcount)
    obtain ⟨hmem, hweight⟩ := List.mem_filter.1 hm
    exact ⟨m, hmembers ▸ hmem, of_decide_eq_true hweight⟩

end Selector

namespace Repository

variable {r r' : Repository} {settings : Settings} {shard uid : String} {s t : Selector}
  {m n : MemberSettings} {draw : Nat} {q : ConnectionRequest}

/-- A repository is what becomes of one that was built from settings: it is coherent, and has a
selector with a member that takes writes for each shard of the settings. -/
structure Fits (r : Repository) (settings : Settings) : Prop where
  /-- It is coherent. -/
  coherent : r.Coherent
  /-- There is a selector for each shard. -/
  shards : r.selectors.map Selector.shard = settings.shards.map ShardSettings.name
  /-- Each has a member that takes writes. -/
  writable : ∀ s ∈ r.selectors, s.Writable

/-- What is said of the shards and the members of selectors depends on the frame only. -/
theorem Fits.of_frame (h : r.Fits settings) (hcoherent : r'.Coherent)
    (hframe : r'.frame = r.frame) : r'.Fits settings := by
  obtain ⟨-, hselectors⟩ := Prod.mk.inj hframe
  have hshards := congrArg (List.map Prod.fst) hselectors
  simp only [List.map_map] at hshards
  refine ⟨hcoherent, hshards.trans h.shards, fun s hs => ?_⟩
  have hmem : s.frame ∈ r.selectors.map Selector.frame := hselectors ▸ List.mem_map_of_mem hs
  obtain ⟨t, ht, heq⟩ := List.mem_map.1 hmem
  have hmembers : t.members = s.members := congrArg (fun f => f.2.1) heq
  obtain ⟨m, hm, hweight⟩ := h.writable t ht
  exact ⟨m, hmembers ▸ hm, hweight⟩

/-- The shards of settings get selectors in their order, each with a member that takes writes. -/
theorem selectors_addShards {declared : List DatasourceSettings} {shards : List ShardSettings}
    (h : addShards declared r shards = .ok r') (hwritable : ∀ s ∈ r.selectors, s.Writable) :
    r'.selectors.map Selector.shard =
        r.selectors.map Selector.shard ++ shards.map ShardSettings.name ∧
      ∀ s ∈ r'.selectors, s.Writable := by
  induction shards generalizing r with
  | nil =>
    cases h
    exact ⟨(List.append_nil _).symm, hwritable⟩
  | cons x shards ih =>
    obtain ⟨ds, -, h⟩ := bind_eq_ok_iff.1 h
    obtain ⟨s, hs, h⟩ := bind_eq_ok_iff.1 h
    split at h
    · cases h
    · obtain ⟨hshards, hall⟩ := ih h fun t ht => by
        rcases List.mem_append.1 ht with ht | ht
        · exact hwritable t ht
        · exact List.mem_singleton.1 ht ▸ Selector.writable_of_build hs
      refine ⟨?_, hall⟩
      rw [hshards, List.map_append, List.append_assoc, List.map_singleton,
        (Selector.of_build hs).1]
      rfl

theorem fits_build (h : build settings = .ok r) : r.Fits settings := by
  have hcoherent := (fresh_build h).coherent
  unfold build at h
  split at h
  · cases h
  · obtain ⟨hshards, hwritable⟩ := selectors_addShards h nofun
    exact ⟨hcoherent, hshards, hwritable⟩

/-- At any time a repository fits the settings that it was built from. -/
theorem fits_after (h : build settings = .ok r) (steps : List Step) :
    (r.after steps).Fits settings := by
  obtain ⟨hcoherent, hframe⟩ := (fits_build h).coherent.after_spec steps
  exact (fits_build h).of_frame hcoherent hframe

/-- What statements do leaves it so. -/
theorem Fits.of_uses (h : r.Fits settings) (huses : r.Uses r') : r'.Fits settings := by
  obtain ⟨hcoherent, hframe, -⟩ := huses.spec h.coherent
  exact h.of_frame hcoherent hframe

theorem Fits.exists_selector? (h : r.Fits settings) (hshard : settings.HasShard shard) :
    ∃ s, r.selector? shard = some s := by
  obtain ⟨d, hd, rfl⟩ := hshard
  have hmem : d.name ∈ r.selectors.map Selector.shard := h.shards ▸ List.mem_map_of_mem hd
  obtain ⟨s, hs, heq⟩ := List.mem_map.1 hmem
  exact ⟨s, h.coherent.selector?_eq_some_iff.2 ⟨hs, heq⟩⟩

/-- The selector of a shard behind a change of the selector of one. -/
theorem selector?_mapSelector {f : Selector → Selector} (hf : ∀ s, (f s).shard = s.shard)
    (r : Repository) (changed shard : String) : (r.mapSelector changed f).selector? shard =
      (r.selector? shard).map fun s => if s.shard == changed then f s else s := by
  apply find?_key_map
  intro s
  split
  · exact hf s
  · rfl

/-- A demotion of a member says whether the member was in use, and reaches the selector that lists
it. -/
theorem Coherent.demote_spec (h : r.Coherent) (hs : r.selector? shard = some s)
    (hm : m ∈ s.members) : (r.demote m.uid).1 = s.isActive m.uid ∧
      (r.demote m.uid).2.selector? shard = some (s.demote m.uid).2 ∧
      m.uid ∈ (s.demote m.uid).2.abnormal := by
  obtain ⟨hmem, rfl⟩ := h.selector?_eq_some_iff.1 hs
  obtain ⟨d, hd, huid, hshard⟩ := h.mem_datasources hmem hm
  have hfound := h.datasource?_eq_some_iff.2 ⟨hd, huid⟩
  refine ⟨?_, ?_, Selector.mem_abnormal_demote.2 (Or.inr ⟨rfl, m, hm, rfl⟩)⟩
  · have hs' : (r.mapDatasource m.uid fun d => { d with idle := d.idle.clear }).selector? d.shard =
        some s := hshard ▸ hs
    simp only [demote, hfound, hs']
    unfold Selector.demote
    split
    · next hactive => exact hactive.symm
    · next hactive => exact (Bool.not_eq_true _ ▸ hactive).symm
  · show (r.step (.demote m.uid)).selector? s.shard = _
    rw [h.step_demote hfound, hshard, selector?_mapSelector fun s => shard_step s _]
    have hs' : (r.mapDatasource m.uid fun d => { d with idle := d.idle.clear }).selector? s.shard =
        some s := hs
    rw [hs', Option.map_some, if_pos (beq_self_eq_true _)]
    rfl

/-- A report of a datasource is left for the monitor, and its failure counted. -/
theorem report_spec {d : Datasource} (hd : r.datasource? uid = some d) :
    (r.report uid).reports = r.reports ++ [uid] ∧
      (r.report uid).datasource? uid = some { d with failures := d.failures + 1 } := by
  have huid := List.find?_some (p := fun d : Datasource => d.uid == uid) hd
  have hreport : r.report uid =
      { r.mapDatasource uid fun d => { d with failures := d.failures + 1 } with
        reports := r.reports ++ [uid] } := by rw [report, hd]
  rw [hreport]
  refine ⟨rfl, ?_⟩
  show (r.mapDatasource uid fun d => { d with failures := d.failures + 1 }).datasource? uid = _
  rw [datasource?, mapDatasource, find?_key_map fun d => by split <;> rfl]
  show (r.datasource? uid).map _ = _
  rw [hd, Option.map_some, if_pos huid]

/-- What a repository has for a shard. -/
structure Hosts (r : Repository) (shard : String) (s : Selector) : Prop where
  /-- The shard has a selector. -/
  found : r.selector? shard = some s
  /-- A member of the selector takes writes. -/
  writable : ∃ m ∈ s.members, 0 < m.writeWeight
  /-- Every member is a datasource of the shard. -/
  registered : ∀ m ∈ s.members, ∃ d, r.datasource? m.uid = some d ∧ d.uid = m.uid ∧ d.shard = shard
  /-- No other selector lists a member, and no other member has its name. -/
  alone : ∀ m ∈ s.members, ∀ t ∈ r.selectors, ∀ n ∈ t.members, n.uid = m.uid → t = s ∧ n = m
  /-- A report of a member is left for the monitor, and its failure counted. -/
  reports : ∀ m ∈ s.members, (r.report m.uid).reports = r.reports ++ [m.uid] ∧
    ((r.report m.uid).datasource? m.uid).map Datasource.failures =
      (r.datasource? m.uid).map (Datasource.failures · + 1)
  /-- A demotion of a member takes it out of use in the selector. -/
  demotes : ∀ m ∈ s.members, (r.demote m.uid).1 = s.isActive m.uid ∧
    (r.demote m.uid).2.selector? shard = some (s.demote m.uid).2 ∧
    m.uid ∈ (s.demote m.uid).2.abnormal
  /-- When the monitor takes a report of a member, the member is out of use in the selector. -/
  taken : ∀ m ∈ s.members, ∀ p, Operation.Agrees p → p.world.repository = r → ∀ rest,
    ∃ s', (Operation.takeReport p m.uid rest).world.repository.selector? shard = some s' ∧
      m.uid ∈ s'.abnormal

/-- A datasource is a member of one selector, once. -/
theorem Coherent.member_unique (h : r.Coherent) (hs : s ∈ r.selectors) (hm : m ∈ s.members)
    (ht : t ∈ r.selectors) (hn : n ∈ t.members) (huid : n.uid = m.uid) : t = s ∧ n = m := by
  obtain ⟨d, hd, hdm, hds⟩ := h.mem_datasources hs hm
  obtain ⟨e, he, hen, het⟩ := h.mem_datasources ht hn
  obtain rfl := List.inj_on_of_nodup_map h.names he hd (by rw [hen, hdm, huid])
  obtain rfl := List.inj_on_of_nodup_map h.shards ht hs (het.symm.trans hds)
  exact ⟨rfl, List.inj_on_of_nodup_map (h.sound t ht).distinct hn hm huid⟩

/-- A report that the monitor takes has its datasource out of use in the selector that lists it. -/
theorem Coherent.takeReport_spec {p : Monitor.Progress} (h : Operation.Agrees p)
    (hs : p.world.repository.selector? shard = some s) (hm : m ∈ s.members) (rest : List String) :
    ∃ s', (Operation.takeReport p m.uid rest).world.repository.selector? shard = some s' ∧
      m.uid ∈ s'.abnormal := by
  rcases Operation.takeReport_cases p m.uid rest with ⟨hmem, heq⟩ | ⟨-, heq⟩
  · -- it was suspected before, and so out of use already
    rw [heq]
    refine ⟨s, hs, ?_⟩
    have hinactive := (h.isActive_eq_false_iff (h.coherent.selector?_eq_some_iff.1 hs).1 hm).2 hmem
    rw [Selector.isActive_eq_false_iff, Selector.Active, not_and, not_not] at hinactive
    exact hinactive ⟨m, hm, rfl⟩
  · rw [heq]
    obtain ⟨-, hselector, hout⟩ := h.coherent.demote_spec hs hm
    exact ⟨_, hselector, hout⟩

/-- At any time a repository has all that a shard of its settings needs. -/
theorem Fits.hosts (h : r.Fits settings) (hshard : settings.HasShard shard) :
    ∃ s, r.Hosts shard s := by
  obtain ⟨s, hs⟩ := h.exists_selector? hshard
  obtain ⟨hmem, hname⟩ := h.coherent.selector?_eq_some_iff.1 hs
  have hregistered : ∀ m ∈ s.members,
      ∃ d, r.datasource? m.uid = some d ∧ d.uid = m.uid ∧ d.shard = shard := by
    intro m hm
    obtain ⟨d, hd, huid, hds⟩ := h.coherent.mem_datasources hmem hm
    exact ⟨d, h.coherent.datasource?_eq_some_iff.2 ⟨hd, huid⟩, huid, hds.trans hname⟩
  refine ⟨s, hs, h.writable s hmem, hregistered, ?_, ?_, ?_, ?_⟩
  · intro m hm t ht n hn huid
    exact h.coherent.member_unique hmem hm ht hn huid
  · intro m hm
    obtain ⟨d, hd, -⟩ := hregistered m hm
    obtain ⟨hreports, hfailures⟩ := report_spec hd
    rw [hfailures, hd]
    exact ⟨hreports, rfl⟩
  · intro m hm
    exact h.coherent.demote_spec hs hm
  · rintro m hm p hagrees rfl rest
    exact Coherent.takeReport_spec hagrees hs hm rest

end Repository

/-! ### Searches and tasks -/

namespace World

variable {w w' : World} {q : ConnectionRequest} {settings : Settings}

/-- The choice of a datasource does not fail where the shard is there. -/
theorem choose_ne_error (h : w.repository.Fits settings) (hshard : settings.HasShard q.shard)
    (isFirst : Bool) (excluded : List String) (f : SettingsFault) :
    w.choose q isFirst excluded ≠ .error f := by
  obtain ⟨s, hs⟩ := h.exists_selector? hshard
  intro hchoose
  unfold choose at hchoose
  split at hchoose
  · obtain ⟨given, hselect, -⟩ := h.coherent.select_spec hs w.draw.1
    have hselect' : w.draw.2.repository.select q w.draw.1 = _ := hselect
    simp only [hselect'] at hchoose
    cases hchoose
  · obtain ⟨given, hselect, -⟩ := h.coherent.selectExcept_spec hs excluded
    simp only [hselect] at hchoose
    cases hchoose

/-- A search does not fail for want of its shard where the shard is there. -/
theorem seekFrom_ne_settings (h : w.repository.Fits settings) (hshard : settings.HasShard q.shard)
    (isFirst : Bool) (excluded : List String) (left : Nat) (f : SettingsFault) :
    (w.seekFrom q isFirst excluded left).1 ≠ .failed (.settings f) := by
  induction left generalizing w isFirst with
  | zero => rintro ⟨⟩
  | succ left ih =>
    rw [seekFrom]
    split
    · next hchoose => exact absurd hchoose (choose_ne_error h hshard _ _ _)
    · next hchoose => exact ih (h.of_uses (uses_choose hchoose)) false
    · split
      · rintro ⟨⟩
      · rintro ⟨⟩

end World

namespace Task

variable {t : Task} {w : World} {settings : Settings} {kind : StatementKind} {retry : Nat}

/-- A task has failed because its shard is not there. -/
def Stray (t : Task) : Prop :=
  ∃ f, t.phase = .finished (.error (.settings f))

theorem not_stray_of_queued (h : t.phase = .queued) : ¬ t.Stray := by
  rintro ⟨f, hphase⟩
  cases h.symm.trans hphase

/-- A task that has got a connection has not failed. -/
theorem not_stray_begin (t : Task) (w : World) (loan : Loan) :
    ¬ ({ t with phase := begin w t.work loan } : Task).Stray := by
  rintro ⟨f, hphase⟩
  unfold begin at hphase
  split at hphase <;> cases hphase

theorem not_stray_search (h : w.repository.Fits settings) (hshard : settings.HasShard t.shard)
    (s : World.Search) : ¬ (t.search w retry s).1.Stray := by
  have hseek := World.seekFrom_ne_settings (q := t.request retry) h hshard s.isFirst s.excluded
    s.left
  rintro ⟨f, hphase⟩
  unfold search World.seek at hphase
  split at hphase
  · exact not_stray_begin _ _ _ ⟨f, hphase⟩
  · cases hphase
  · next cause w' heq =>
    cases hphase
    exact hseek f (by rw [heq])

theorem not_stray_answered (t : Task) (w : World) (kind : StatementKind) (loan : Loan)
    (params : List (List Value)) (more : List (CallKind × List (List Value))) (changed : Nat)
    (b : Behaviour) : ¬ (t.answered w kind loan params more changed b).1.Stray := by
  rintro ⟨f, hphase⟩
  unfold answered at hphase
  split at hphase
  · cases hphase
  · split at hphase <;> cases hphase

/-- A step of a task does not fail for want of its shard where the shard is there. -/
theorem not_stray_step (h : w.repository.Fits settings) (hshard : settings.HasShard t.shard)
    (ht : ¬ t.Stray) : ¬ (t.step w kind retry).1.Stray := by
  unfold step
  split
  · exact not_stray_search h hshard _
  · next uid s _ =>
    have hrepository := w.repository_openConnection uid
    split
    · exact not_stray_begin _ _ _
    · next e w' hopen =>
      rw [hopen] at hrepository
      have hfits : w'.repository.Fits settings := hrepository ▸ h
      exact not_stray_search (hfits.of_uses (w'.uses_reportIfFatal uid e)) hshard _
  · split
    · exact not_stray_answered _ _ _ _ _ _ _ _
    · rintro ⟨f, hphase⟩
      cases hphase
  · exact ht

end Task

/-! ### Runs -/

namespace Operation

variable {settings : Settings} {c : Catalog} {registry : Registry} {o o' : Operation}
  {timeout : Nat} {event : Event}

/-- Whatever happens, a repository fits its settings. -/
theorem fits_move (h : o.repository.Fits settings) (hmove : Move timeout o event o') :
    o'.repository.Fits settings := by
  cases hmove with
  | pass uses => exact h.of_uses uses
  | begin | turn | finish => exact h
  | @take uid rest stage reports =>
    have hknown : ∀ v ∈ rest, o.repository.Knows v :=
      fun v hv => h.coherent.reported v (reports ▸ List.mem_cons_of_mem _ hv)
    rcases takeReport_cases o.progress uid rest with ⟨-, heq⟩ | ⟨-, heq⟩
    · rw [heq]
      exact h.of_frame (h.coherent.withReports hknown) rfl
    · rw [heq]
      obtain ⟨hcoherent, hframe⟩ := h.coherent.step_spec (.demote uid)
      refine h.of_frame (hcoherent.withReports fun v hv => ?_) hframe
      exact (Repository.knows_of_frame hframe).2 (hknown v hv)
  | @validate uid pending stage =>
    show (Monitor.checkOne timeout o.progress uid).world.repository.Fits settings
    unfold Monitor.checkOne
    split
    · exact h
    · next d hd =>
      have hrepository := o.world.repository_validate d timeout
      have hfits : (o.world.validate d timeout).2.2.repository.Fits settings := hrepository ▸ h
      simp only
      split
      · obtain ⟨hcoherent, hframe⟩ := hfits.coherent.step_spec (.wake uid)
        exact hfits.of_frame hcoherent hframe
      · exact hfits

/-- The tasks that run are on shards of the settings, and none has failed for want of its shard. -/
structure OnShards (settings : Settings) (o : Operation) : Prop where
  /-- The repository fits the settings. -/
  fits : o.repository.Fits settings
  /-- The tasks are on shards. -/
  shards : ∀ x ∈ o.running, settings.HasShard x.task.shard
  /-- None has failed for want of its shard. -/
  served : ∀ x ∈ o.running, ¬ x.task.Stray

/-- The tasks of a statement are those of its plan. -/
theorem tasksOf_eq (e : Executor) (s : Statement) (p : Plan) (maxRows : Nat) :
    tasksOf e s p maxRows = (Executor.tasksFor p maxRows
      (if s.kind.isQuery then .query else .update)).map fun task =>
        ⟨task, s.kind, e.session.retry⟩ := by
  unfold tasksOf
  split <;> rfl

/-- Every event keeps tasks on shards, if statements are planned by the catalog of the settings. -/
theorem OnShards.step (hcatalog : Catalog.build registry settings = .ok c)
    (h : o.OnShards settings) (hplanned : ∀ e s n, event = .statement e s n → e.catalog = c) :
    (o.step timeout event).OnShards settings := by
  have hfits := fits_move h.fits (move_step timeout o event)
  cases event with
  | statement e s maxRows =>
    simp only [Operation.step] at hfits ⊢
    split at hfits
    · exact ⟨hfits, h.shards, h.served⟩
    · next p w hplan =>
      obtain ⟨hplan, -⟩ := Prod.mk.inj hplan
      rw [hplanned e s maxRows rfl] at hplan
      have hnew : ∀ x ∈ tasksOf e s p maxRows,
          settings.HasShard x.task.shard ∧ ¬ x.task.Stray := by
        intro x hx
        rw [tasksOf_eq] at hx
        obtain ⟨t, ht, rfl⟩ := List.mem_map.1 hx
        exact ⟨Plan.hasShard_of_mem_tasksFor hcatalog hplan ht,
          Task.not_stray_of_queued (Executor.queued_of_mem_tasksFor _ _ _ ht).1⟩
      refine ⟨hfits, fun x hx => ?_, fun x hx => ?_⟩
      · exact (List.mem_append.1 hx).elim (h.shards x) fun hx => (hnew x hx).1
      · exact (List.mem_append.1 hx).elim (h.served x) fun hx => (hnew x hx).2
  | goOn i =>
    simp only [Operation.step] at hfits ⊢
    split at hfits
    · exact h
    · next x hx =>
      have hmem := List.mem_of_getElem? hx
      refine ⟨hfits, forall_mem_set h.shards ?_, forall_mem_set h.served ?_⟩
      · show settings.HasShard (x.task.step o.world x.kind x.retry).1.shard
        rw [(x.task.goes_step o.world x.kind x.retry).kept.1]
        exact h.shards x hmem
      · exact Task.not_stray_step h.fits (h.shards x hmem) (h.served x hmem)
  | report uid => exact ⟨hfits, h.shards, h.served⟩
  | behave uid b => exact ⟨hfits, h.shards, h.served⟩
  | monitor =>
    have hrunning : (o.step timeout .monitor).running = o.running := by
      simp only [Operation.step, monitorStep]
      split
      · rfl
      · split <;> rfl
      · rfl
      · rfl
    exact ⟨hfits, hrunning ▸ h.shards, hrunning ▸ h.served⟩

/-- So does any run. -/
theorem OnShards.after (hcatalog : Catalog.build registry settings = .ok c)
    (h : o.OnShards settings) {events : List Event}
    (hplanned : ∀ e s n, Event.statement e s n ∈ events → e.catalog = c) :
    (o.after timeout events).OnShards settings := by
  induction events generalizing o with
  | nil => exact h
  | cons event events ih =>
    refine ih (h.step hcatalog fun e s n heq => ?_) fun e s n hmem => ?_
    · exact hplanned e s n (heq ▸ List.mem_cons_self)
    · exact hplanned e s n (List.mem_cons_of_mem _ hmem)

end Operation

namespace Execution

variable {settings : Settings} {x : Execution}

/-- The tasks of a statement are on shards, and none has failed for want of its shard. -/
structure OnShards (settings : Settings) (x : Execution) : Prop where
  /-- The repository fits the settings. -/
  fits : x.world.repository.Fits settings
  /-- The tasks are on shards. -/
  shards : ∀ t ∈ x.tasks, settings.HasShard t.shard
  /-- None has failed for want of its shard. -/
  served : ∀ t ∈ x.tasks, ¬ t.Stray

theorem OnShards.step (h : x.OnShards settings) (i : Nat) : (x.step i).OnShards settings := by
  cases hi : x.tasks[i]? with
  | none =>
    rw [Execution.step, hi]
    exact h
  | some t =>
    have hmem := List.mem_of_getElem? hi
    rw [step_of_getElem? hi]
    refine ⟨h.fits.of_uses (t.uses_step _ _ _), forall_mem_set h.shards ?_,
      forall_mem_set h.served (Task.not_stray_step h.fits (h.shards t hmem) (h.served t hmem))⟩
    rw [(t.goes_step x.world x.kind x.retry).kept.1]
    exact h.shards t hmem

end Execution

namespace Executor

variable {α : Type} {registry : Registry} {settings : Settings} {e : Executor} {w w' : World}
  {s : Statement} {use : StatementUse} {maxRows : Nat} {fold : Plan → List Output → α} {f : Failure}

/-- No execution fails for want of a shard, over a repository of the settings of its catalog. -/
theorem execute_ne_settings (hcatalog : Catalog.build registry settings = .ok e.catalog)
    (hfits : w.repository.Fits settings) (h : e.execute w s use maxRows fold = (.error f, w'))
    (fault : SettingsFault) : f.cause ≠ .settings fault := by
  have hexecutes := e.executes w s use maxRows fold
  rw [h] at hexecutes
  cases hexecutes with
  | wrongKind => exact nofun
  | unplanned fit plan =>
    obtain ⟨hplan, -⟩ := Prod.mk.inj plan
    obtain ⟨fault', -, rfl⟩ := Plan.ofStatement_eq_error_iff.1 hplan
    exact nofun
  | @failed p w₁ _ cause fit plan invoke =>
    obtain ⟨hplan, hworld⟩ := Prod.mk.inj plan
    have hfits₁ : w₁.repository.Fits settings := by
      rw [← hworld]
      exact hfits
    have hstart : Execution.OnShards settings
        ⟨w₁, tasksFor p maxRows use, s.kind, e.session.retry⟩ := by
      refine ⟨hfits₁, fun t ht => ?_, fun t ht => ?_⟩
      · exact Plan.hasShard_of_mem_tasksFor hcatalog hplan ht
      · exact Task.not_stray_of_queued (queued_of_mem_tasksFor p maxRows use ht).1
    have hended : (e.ended w₁ s.kind (tasksFor p maxRows use)).OnShards settings :=
      Schedule.run_induction (fun _ i h => h.step i) hstart _ _
    show cause ≠ .settings fault
    rcases mem_outcomes_of_invoke invoke with hmem | ⟨ms, rfl⟩
    · obtain ⟨t, ht, hphase⟩ := Execution.exists_of_mem_outcomes hmem
      rintro rfl
      exact hended.served t ht ⟨fault, hphase⟩
    · exact nofun

end Executor

/-! ### The agreement of tables and datasources -/

/-- Where settings are accepted for tables and for datasources, each plan can run: whatever happened
to the repository, it has all that is needed for the shard of every fragment, with members that are
datasources of that shard and of no other, and reports and demotions that reach the selector that
lists them. So no task of a plan fails for want of its shard, however tasks, reports, changes of
databases and steps of the monitor follow each other, and no statement does. -/
theorem planned_shards {registry : Registry} {settings : Settings} {c : Catalog} {r : Repository}
    (hcatalog : Catalog.build registry settings = .ok c)
    (hrepository : Repository.build settings = .ok r) (steps : List Repository.Step) :
    (∀ draw s p, Plan.ofStatement c draw s = .ok p → ∀ f ∈ p.fragments,
      ∃ sel, (r.after steps).Hosts f.shard sel) ∧
    (∀ sel ∈ (r.after steps).selectors, ∀ other ∈ (r.after steps).selectors,
      ∀ m ∈ sel.members, ∀ n ∈ other.members, n.uid = m.uid → other = sel ∧ n = m) ∧
    (∀ (w : World) timeout events, w.repository = r.after steps →
      (∀ e s maxRows, Operation.Event.statement e s maxRows ∈ events → e.catalog = c) →
      ∀ x ∈ ((Operation.start w).after timeout events).running, ∀ fault,
        x.task.phase ≠ .finished (.error (.settings fault))) ∧
    ∀ (e : Executor) (w : World) s, e.catalog = c → w.repository = r.after steps →
      (∀ f w', e.update w s = (.error f, w') → ∀ fault, f.cause ≠ .settings fault) ∧
      ∀ maxRows f w', e.query w s maxRows = (.error f, w') →
        ∀ fault, f.cause ≠ .settings fault := by
  have hfits := Repository.fits_after hrepository steps
  refine ⟨?_, ?_, ?_, ?_⟩
  · intro draw s p hplan f hf
    exact hfits.hosts (Plan.hasShard_of_mem hcatalog hplan hf)
  · intro sel hsel other hother m hm n hn huid
    exact hfits.coherent.member_unique hsel hm hother hn huid
  · intro w timeout events hw hplanned x hx fault hphase
    have hfits : w.repository.Fits settings := hw ▸ hfits
    have hstart : (Operation.start w).OnShards settings :=
      ⟨hfits, fun x hx => absurd hx List.not_mem_nil, fun x hx => absurd hx List.not_mem_nil⟩
    exact (hstart.after hcatalog hplanned).served x hx ⟨fault, hphase⟩
  · intro e w s hc hw
    refine ⟨fun f w' h => ?_, fun maxRows f w' h => ?_⟩
    · rw [Executor.update_eq] at h
      exact Executor.execute_ne_settings (hc ▸ hcatalog) (hw ▸ hfits) h
    · rw [Executor.query_eq] at h
      exact Executor.execute_ne_settings (hc ▸ hcatalog) (hw ▸ hfits) h

/-- Settings with a table that is spread over a shard of two datasources and one of a single one. -/
def pairSettings : Settings where
  datasources := [{ uid := "m0" }, { uid := "r0" }, { uid := "m1" }]
  shards := [{ name := "s0", members := [{ uid := "m0" }, { uid := "r0", writeWeight := 0 }] },
    { name := "s1", members := [{ uid := "m1" }] }]
  routers := [{ id := "by-user", partition := [{ shard := "s0" }, { shard := "s1" }]
                rule := { columns := [{ name := "user_id" }], algorithm := some "mod" } }]
  tables := [{ name := "orders", router := some "by-user" }]

/-- A statement that removes all rows of the table has a fragment for the first shard, which has all
it needs while one of its datasources is out of use. -/
theorem planned_shards_pair : ∃ c r p f sel, Catalog.build Registry.builtin pairSettings = .ok c ∧
    Repository.build pairSettings = .ok r ∧
    Plan.ofStatement c 0 { kind := .delete, table := "orders" } = .ok p ∧
    f ∈ p.fragments ∧ f.shard = "s0" ∧ (r.after [.demote "r0"]).Hosts "s0" sel := by
  obtain ⟨c, hcatalog⟩ : ∃ c, Catalog.build Registry.builtin pairSettings = .ok c := ⟨_, rfl⟩
  obtain ⟨r, hrepository⟩ : ∃ r, Repository.build pairSettings = .ok r := ⟨_, rfl⟩
  have hplan : ∃ p f, Plan.ofStatement c 0 { kind := .delete, table := "orders" } = .ok p ∧
      f ∈ p.fragments ∧ f.shard = "s0" := by
    cases hcatalog
    exact ⟨_, _, rfl, List.mem_cons_self, rfl⟩
  obtain ⟨p, f, hplan, hf, hshard⟩ := hplan
  obtain ⟨hhosts, -⟩ := planned_shards hcatalog hrepository [.demote "r0"]
  obtain ⟨sel, hsel⟩ := hhosts 0 _ p hplan f hf
  exact ⟨c, r, p, f, sel, hcatalog, hrepository, hplan, hf, hshard, hshard ▸ hsel⟩

end ShardRouting
