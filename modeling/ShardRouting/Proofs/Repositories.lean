import Mathlib
import ShardRouting.Datasource.Repository
import ShardRouting.Proofs.Outcome
import ShardRouting.Proofs.SelectorStates

/-!
# Histories of repositories

A repository names each datasource in two places: among its datasources, and as a member of the
shard that the selector of the shard chooses from. Both are built together and never come apart: what
happens to a repository moves balancers on, counts failures, and takes members out of use and back,
but leaves shards, members and settings as they are.

* `Repository.Coherent`: shards and datasources have names of their own, and the datasources are the
  members of the shards.
* `Repository.coherent_after`: this holds behind any history of a repository that was built.
* `Repository.mem_candidates_of_select`, `Repository.mem_candidates_of_selectExcept`: a selection
  gives a member in use that serves the request.
* `Repository.Uses`: what statements do to a repository, which takes nothing out of use.
-/

namespace ShardRouting

section Keyed

variable {α β κ : Type} [DecidableEq κ] {key : α → κ} {l : List α} {a : α} {k : κ}

/-- Where all keys differ, a search by key finds exactly the entry of the key. -/
theorem find?_key_eq_some_iff (h : (l.map key).Nodup) :
    (l.find? fun x => key x == k) = some a ↔ a ∈ l ∧ key a = k := by
  constructor
  · intro hfind
    have hkey := List.find?_some (p := fun x => key x == k) hfind
    exact ⟨List.mem_of_find?_eq_some hfind, beq_iff_eq.1 hkey⟩
  · rintro ⟨ha, rfl⟩
    cases hfind : l.find? fun x => key x == key a with
    | none => exact absurd (beq_self_eq_true _) (List.find?_eq_none.1 hfind a ha)
    | some b =>
      have hkey := List.find?_some (p := fun x => key x == key a) hfind
      rw [List.inj_on_of_nodup_map h (List.mem_of_find?_eq_some hfind) ha (beq_iff_eq.1 hkey)]

/-- A search by key finds the changed entry, if changes keep the keys. -/
theorem find?_key_map {f : α → α} (hf : ∀ x, key (f x) = key x) :
    ((l.map f).find? fun x => key x == k) = (l.find? fun x => key x == k).map f := by
  rw [List.find?_map]
  congr 2
  funext x
  simp [hf]

/-- What changes keep is found as before. -/
theorem map_find?_map_key {f : α → α} {g : α → β} (hf : ∀ x, key (f x) = key x)
    (hg : ∀ x, g (f x) = g x) :
    ((l.map f).find? fun x => key x == k).map g = (l.find? fun x => key x == k).map g := by
  rw [find?_key_map hf, Option.map_map]
  congr 1
  funext x
  exact hg x

/-- A change of the entries of one key keeps what it keeps of these. -/
theorem map_map_key {f : α → α} {g : α → β} (hf : ∀ x ∈ l, key x = k → g (f x) = g x) :
    (l.map fun x => if key x == k then f x else x).map g = l.map g := by
  rw [List.map_map]
  apply List.map_congr_left
  intro x hx
  show g (if key x == k then f x else x) = g x
  split
  · next hk => exact hf x hx (beq_iff_eq.1 hk)
  · rfl

end Keyed

/-- A datasource with its shard. -/
def Datasource.home (d : Datasource) : String × String :=
  (d.shard, d.uid)

/-- The members of a shard, each with the shard. -/
def Selector.homes (s : Selector) : List (String × String) :=
  s.members.map fun m => (s.shard, m.uid)

namespace Repository

/-! ### Histories -/

/-- Something that happens to a repository. -/
inductive Step where
  /-- A datasource is selected for a request. -/
  | select (q : ConnectionRequest) (draw : Nat)
  /-- A failure is reported. -/
  | report (uid : String)
  /-- An idle connection is taken. -/
  | takeIdle (uid : String)
  /-- A connection comes back. -/
  | giveBack (uid : String) (number : Nat)
  /-- The reports are taken. -/
  | takeReports
  /-- A datasource goes out of use. -/
  | demote (uid : String)
  /-- A datasource comes back into use. -/
  | wake (uid : String)

/-- The repository behind one step. -/
def step (r : Repository) : Step → Repository
  | .select q draw =>
    match r.select q draw with
    | .ok (_, r) => r
    | .error _ => r
  | .report uid => r.report uid
  | .takeIdle uid => ((r.takeIdle? uid).map Prod.snd).getD r
  | .giveBack uid number => r.giveBack uid number
  | .takeReports => { r with reports := [] }
  | .demote uid => (r.demote uid).2
  | .wake uid => (r.wake uid).2

/-- The repository behind a history. -/
def after (r : Repository) (steps : List Step) : Repository :=
  steps.foldl step r

/-- What no step changes: the declarations of the datasources, and the frames of the selectors. -/
def frame (r : Repository) :=
  (r.datasources.map fun d => (d.settings, d.shard, d.member), r.selectors.map Selector.frame)

/-- A datasource is one of the repository. -/
def Knows (r : Repository) (uid : String) : Prop :=
  ∃ d ∈ r.datasources, d.uid = uid

/-- A datasource is out of use in a shard. -/
def OutOfUse (r : Repository) (uid : String) : Prop :=
  ∃ s ∈ r.selectors, uid ∈ s.abnormal

/-- The two places in which datasources are named fit each other. -/
structure Coherent (r : Repository) : Prop where
  /-- The shards have different names. -/
  shards : (r.selectors.map Selector.shard).Nodup
  /-- The datasources have different names. -/
  names : (r.datasources.map Datasource.uid).Nodup
  /-- The datasources are the members of the shards. -/
  members : r.datasources.map Datasource.home = r.selectors.flatMap Selector.homes
  /-- The selectors are sound. -/
  sound : ∀ s ∈ r.selectors, s.Sound
  /-- Reports are of datasources that are there. -/
  reported : ∀ uid ∈ r.reports, r.Knows uid

variable {r r' r'' : Repository} {q : ConnectionRequest} {s t : Selector} {d : Datasource}
  {m : MemberSettings} {uid v : String} {draw : Nat}

/-! ### Looking things up -/

theorem Coherent.datasource?_eq_some_iff (h : r.Coherent) :
    r.datasource? uid = some d ↔ d ∈ r.datasources ∧ d.uid = uid :=
  find?_key_eq_some_iff h.names

theorem Coherent.selector?_eq_some_iff (h : r.Coherent) {shard : String} :
    r.selector? shard = some s ↔ s ∈ r.selectors ∧ s.shard = shard :=
  find?_key_eq_some_iff h.shards

theorem knows_iff : r.Knows uid ↔ (r.datasource? uid).isSome := by
  simp [Knows, datasource?, List.find?_isSome]

theorem exists_datasource (h : r.Knows uid) : ∃ d, r.datasource? uid = some d :=
  Option.isSome_iff_exists.1 (knows_iff.1 h)

/-- A member of a shard is a datasource of that shard. -/
theorem Coherent.mem_datasources (h : r.Coherent) (hs : s ∈ r.selectors) (hm : m ∈ s.members) :
    ∃ d ∈ r.datasources, d.uid = m.uid ∧ d.shard = s.shard := by
  have hpair : (s.shard, m.uid) ∈ r.datasources.map Datasource.home := by
    rw [h.members]
    exact List.mem_flatMap.2 ⟨s, hs, List.mem_map.2 ⟨m, hm, rfl⟩⟩
  obtain ⟨d, hd, heq⟩ := List.mem_map.1 hpair
  obtain ⟨hshard, huid⟩ := Prod.mk.inj heq
  exact ⟨d, hd, huid, hshard⟩

/-- A datasource is a member of its shard. -/
theorem Coherent.exists_selector (h : r.Coherent) (hd : d ∈ r.datasources) :
    ∃ s ∈ r.selectors, s.shard = d.shard ∧ ∃ m ∈ s.members, m.uid = d.uid := by
  have hpair : d.home ∈ r.datasources.map Datasource.home := List.mem_map.2 ⟨d, hd, rfl⟩
  rw [h.members, List.mem_flatMap] at hpair
  obtain ⟨s, hs, hpair⟩ := hpair
  obtain ⟨m, hm, heq⟩ := List.mem_map.1 hpair
  obtain ⟨hshard, huid⟩ := Prod.mk.inj heq
  exact ⟨s, hs, hshard, m, hm, huid⟩

theorem Coherent.knows_of_mem (h : r.Coherent) (hs : s ∈ r.selectors) (hm : m ∈ s.members) :
    r.Knows m.uid := by
  obtain ⟨d, hd, huid, -⟩ := h.mem_datasources hs hm
  exact ⟨d, hd, huid⟩

/-- A datasource is a member of one shard only. -/
theorem Coherent.selector_unique (h : r.Coherent) (hs : s ∈ r.selectors) (hm : m ∈ s.members)
    (ht : t ∈ r.selectors) (hout : m.uid ∈ t.abnormal) : t = s := by
  obtain ⟨n, hn, huid⟩ := (h.sound t ht).abnormal _ hout
  obtain ⟨d, hd, hdm, hds⟩ := h.mem_datasources hs hm
  obtain ⟨e, he, hem, het⟩ := h.mem_datasources ht hn
  obtain rfl := List.inj_on_of_nodup_map h.names he hd (by rw [hem, hdm, huid])
  exact List.inj_on_of_nodup_map h.shards ht hs (het.symm.trans hds)

/-- A member is not in use exactly where it is out of use. -/
theorem Coherent.isActive_eq_false_iff (h : r.Coherent) (hs : s ∈ r.selectors)
    (hm : m ∈ s.members) : s.isActive m.uid = false ↔ r.OutOfUse m.uid := by
  rw [Selector.isActive_eq_false_iff, Selector.Active, not_and, not_not]
  constructor
  · intro hout
    exact ⟨s, hs, hout ⟨m, hm, rfl⟩⟩
  · rintro ⟨t, ht, hout⟩ -
    rwa [← h.selector_unique hs hm ht hout]

/-- Only datasources of the repository are out of use. -/
theorem Coherent.knows_of_outOfUse (h : r.Coherent) (hout : r.OutOfUse uid) : r.Knows uid := by
  obtain ⟨s, hs, hout⟩ := hout
  obtain ⟨m, hm, rfl⟩ := (h.sound s hs).abnormal uid hout
  exact h.knows_of_mem hs hm

/-! ### Selections -/

/-- The datasources that may serve a request: the members in use that serve its role, or the one
that it names, if that is in use. -/
def candidates (r : Repository) (q : ConnectionRequest) : List String :=
  match r.selector? q.shard, q.named with
  | none, _ => []
  | some s, none => s.candidates q.readOnly
  | some s, some uid => if s.isActive uid then [uid] else []

theorem selector_eq_ok_of_some (h : r.selector? q.shard = some s) : r.selector q.shard = .ok s := by
  rw [selector, h]

theorem Coherent.sound_of_selector? (h : r.Coherent) (hs : r.selector? q.shard = some s) :
    s.Sound :=
  h.sound s (h.selector?_eq_some_iff.1 hs).1

/-- A selection for a request depends on no count that exceeds a word: it names a datasource, or its
selector depends on none. -/
def Bounded (r : Repository) (q : ConnectionRequest) : Prop :=
  q.named = none → ∀ s ∈ r.selector? q.shard, s.Bounded q.readOnly

instance (r : Repository) : DecidablePred r.Bounded :=
  fun _ => inferInstanceAs (Decidable (_ → _))

/-- What a selection for a shard that is there comes to: a candidate, or nothing, which where counts
are within a word means that there are none. -/
theorem Coherent.select_spec (h : r.Coherent) (hs : r.selector? q.shard = some s) (draw : Nat) :
    ∃ given, r.select q draw = .ok (given, r.step (.select q draw)) ∧
      (r.Bounded q → given = none → r.candidates q = []) ∧
      ∀ uid, given = some uid → uid ∈ r.candidates q := by
  have hsound := h.sound_of_selector? hs
  simp only [step, select, selector_eq_ok_of_some hs, candidates, hs]
  cases hnamed : q.named with
  | none =>
    refine ⟨(s.select q.readOnly draw).1, rfl, ?_, ?_⟩
    · intro hbounded hnone
      apply List.eq_nil_iff_forall_not_mem.2
      intro uid huid
      have hwithin : s.Bounded q.readOnly := hbounded hnamed s hs
      exact (Selector.select_eq_none_iff hsound hwithin).1 hnone uid
        (Selector.mem_candidates.1 huid)
    · intro uid hgiven
      exact Selector.mem_candidates.2 (Selector.candidate_of_select hsound hgiven)
  | some uid =>
    refine ⟨s.selectNamed uid, rfl, ?_⟩
    unfold Selector.selectNamed
    by_cases hactive : s.isActive uid <;> simp [hactive]

/-- What a selection with exclusions comes to: a candidate that is not excluded, or nothing where all
are. -/
theorem Coherent.selectExcept_spec (h : r.Coherent) (hs : r.selector? q.shard = some s)
    (excluded : List String) : ∃ given, r.selectExcept q excluded = .ok given ∧
      (given = none → ∀ uid ∈ r.candidates q, uid ∈ excluded) ∧
      ∀ uid, given = some uid → uid ∈ r.candidates q ∧ uid ∉ excluded := by
  have hsound := h.sound_of_selector? hs
  simp only [selectExcept, selector_eq_ok_of_some hs, candidates, hs]
  cases hnamed : q.named with
  | none =>
    refine ⟨s.selectExcept q.readOnly excluded, rfl, ?_, ?_⟩
    · intro hnone uid huid
      exact (Selector.selectExcept_eq_none_iff hsound).1 hnone uid (Selector.mem_candidates.1 huid)
    · intro uid hgiven
      obtain ⟨hcandidate, hnot⟩ := Selector.candidate_of_selectExcept hsound hgiven
      exact ⟨Selector.mem_candidates.2 hcandidate, hnot⟩
  | some uid =>
    refine ⟨_, rfl, ?_⟩
    unfold Selector.selectNamed
    by_cases hex : uid ∈ excluded <;> by_cases hactive : s.isActive uid <;> simp [hex, hactive]

/-- A selection gives a candidate. -/
theorem Coherent.mem_candidates_of_select (h : r.Coherent)
    (hselect : r.select q draw = .ok (some uid, r')) : uid ∈ r.candidates q := by
  cases hs : r.selector? q.shard with
  | none =>
    rw [select, selector, hs] at hselect
    cases hselect
  | some s =>
    obtain ⟨given, heq, -, hgiven⟩ := h.select_spec hs draw
    rw [heq] at hselect
    exact hgiven uid (Prod.mk.inj (Except.ok.inj hselect)).1

/-- A selection with exclusions gives a candidate. -/
theorem Coherent.mem_candidates_of_selectExcept (h : r.Coherent) {excluded : List String}
    (hselect : r.selectExcept q excluded = .ok (some uid)) : uid ∈ r.candidates q := by
  cases hs : r.selector? q.shard with
  | none =>
    rw [selectExcept, selector, hs] at hselect
    cases hselect
  | some s =>
    obtain ⟨given, heq, -, hgiven⟩ := h.selectExcept_spec hs excluded
    rw [heq] at hselect
    exact (hgiven uid (Except.ok.inj hselect)).1

/-- What is out of use is no candidate for anything. -/
theorem Coherent.not_mem_candidates (h : r.Coherent) (hout : r.OutOfUse uid)
    (q : ConnectionRequest) : uid ∉ r.candidates q := by
  unfold candidates
  split
  · exact List.not_mem_nil
  · next s hs _ =>
    intro hmem
    obtain ⟨m, hm, rfl, -, hactive⟩ := Selector.mem_candidates.1 hmem
    have hs := (h.selector?_eq_some_iff.1 hs).1
    obtain ⟨t, ht, hout⟩ := hout
    exact hactive (h.selector_unique hs hm ht hout ▸ hout)
  · next s named hs _ =>
    split
    · next hactive =>
      rw [List.mem_singleton]
      rintro rfl
      have hs := (h.selector?_eq_some_iff.1 hs).1
      obtain ⟨m, hm, rfl⟩ := (Selector.isActive_iff.1 hactive).1
      rw [(h.isActive_eq_false_iff hs hm).2 hout] at hactive
      cases hactive
    · exact List.not_mem_nil

/-! ### What a step changes -/

/-- The repository with the selector of a shard changed. -/
def mapSelector (r : Repository) (shard : String) (f : Selector → Selector) : Repository :=
  { r with selectors := r.selectors.map fun s => if s.shard == shard then f s else s }

theorem frame_mapDatasource {f : Datasource → Datasource}
    (hf : ∀ d, ((f d).settings, (f d).shard, (f d).member) = (d.settings, d.shard, d.member))
    (r : Repository) (uid : String) : (r.mapDatasource uid f).frame = r.frame :=
  Prod.ext (map_map_key fun d _ _ => hf d) rfl

theorem frame_mapSelector {f : Selector → Selector} (hf : ∀ s, (f s).frame = s.frame)
    (r : Repository) (shard : String) : (r.mapSelector shard f).frame = r.frame :=
  Prod.ext rfl (map_map_key fun s _ _ => hf s)

/-- A repository of the same frame is coherent too, if its selectors are sound and its reports of
datasources that are there. -/
theorem Coherent.of_frame (h : r.Coherent) (hframe : r'.frame = r.frame)
    (hsound : ∀ s ∈ r'.selectors, s.Sound) (hreported : ∀ uid ∈ r'.reports, r.Knows uid) :
    r'.Coherent := by
  obtain ⟨hdatasources, hselectors⟩ := Prod.mk.inj hframe
  have hshards : r'.selectors.map Selector.shard = r.selectors.map Selector.shard := by
    have hnames := congrArg (List.map fun f => f.1) hselectors
    simp only [List.map_map, Function.comp_def] at hnames
    exact hnames
  have hnames : r'.datasources.map Datasource.uid = r.datasources.map Datasource.uid := by
    have huids := congrArg (List.map fun f => f.1.uid) hdatasources
    simp only [List.map_map, Function.comp_def] at huids
    exact huids
  refine ⟨hshards ▸ h.shards, hnames ▸ h.names, ?_, hsound, ?_⟩
  · have hhomes := congrArg (List.map fun f => (f.2.1, f.1.uid)) hdatasources
    have hmembers := congrArg (List.flatMap fun f => f.2.1.map fun m => (f.1, m.uid)) hselectors
    simp only [List.map_map, Function.comp_def] at hhomes
    simp only [List.flatMap_map, Selector.frame] at hmembers
    exact hhomes.trans (h.members.trans hmembers.symm)
  · intro uid huid
    obtain ⟨d, hd, hduid⟩ := hreported uid huid
    have hmem : d.uid ∈ r'.datasources.map Datasource.uid := hnames ▸ List.mem_map.2 ⟨d, hd, rfl⟩
    obtain ⟨d', hd', huid'⟩ := List.mem_map.1 hmem
    exact ⟨d', hd', huid'.trans hduid⟩

theorem shard_step (s : Selector) (x : Selector.Step) : (s.step x).shard = s.shard :=
  congrArg Prod.fst (Selector.frame_step s x)

/-- Replacing the selector of a shard changes that selector, as there is one only. -/
theorem setSelector_eq (h : (r.selectors.map Selector.shard).Nodup) (hs : s ∈ r.selectors)
    (x : Selector.Step) : r.setSelector (s.step x) = r.mapSelector s.shard fun s => s.step x := by
  rw [setSelector, mapSelector, shard_step]
  congr 1
  apply List.map_congr_left
  intro t ht
  split
  · next hshard =>
    rw [List.inj_on_of_nodup_map h ht hs (beq_iff_eq.1 hshard)]
  · rfl

theorem Coherent.step_select (h : r.Coherent) (q : ConnectionRequest) (draw : Nat) :
    r.step (.select q draw) = r ∨ r.step (.select q draw) =
      r.mapSelector q.shard fun s => s.step (.select q.readOnly draw) := by
  simp only [step, select, selector]
  cases hs : r.selector? q.shard with
  | none => exact Or.inl rfl
  | some s =>
    obtain ⟨hmem, hshard⟩ := h.selector?_eq_some_iff.1 hs
    cases hnamed : q.named with
    | some uid => exact Or.inl rfl
    | none =>
      right
      rw [← hshard]
      exact setSelector_eq h.shards hmem (.select q.readOnly draw)

/-- A selection changes neither the datasources nor the reports. -/
theorem Coherent.kept_by_select (h : r.Coherent) (q : ConnectionRequest) (draw : Nat) :
    (r.step (.select q draw)).datasources = r.datasources ∧
      (r.step (.select q draw)).reports = r.reports := by
  rcases h.step_select q draw with heq | heq
  · rw [heq]
    exact ⟨rfl, rfl⟩
  · rw [heq]
    exact ⟨rfl, rfl⟩

theorem step_report (r : Repository) (uid : String) : r.step (.report uid) =
    if (r.datasource? uid).isSome then
      { r.mapDatasource uid fun d => { d with failures := d.failures + 1 } with
        reports := r.reports ++ [uid] }
    else r := by
  simp only [step, report]
  cases r.datasource? uid <;> rfl

/-- A change of a datasource with its member in the shard. -/
theorem Coherent.setSelector_of_datasource (h : r.Coherent) (hd : r.datasource? uid = some d)
    (f : Datasource → Datasource) (x : Selector.Step) :
    ∃ s, r.selector? d.shard = some s ∧ (r.mapDatasource uid f).setSelector (s.step x) =
      (r.mapDatasource uid f).mapSelector d.shard fun s => s.step x := by
  obtain ⟨s, hs, hshard, -⟩ := h.exists_selector (h.datasource?_eq_some_iff.1 hd).1
  refine ⟨s, h.selector?_eq_some_iff.2 ⟨hs, hshard⟩, ?_⟩
  rw [← hshard]
  exact setSelector_eq (r := r.mapDatasource uid f) h.shards hs x

theorem Coherent.step_demote (h : r.Coherent) (hd : r.datasource? uid = some d) :
    r.step (.demote uid) =
      (r.mapDatasource uid fun d => { d with idle := d.idle.clear }).mapSelector d.shard fun s =>
        s.step (.demote uid) := by
  obtain ⟨s, hs, heq⟩ := h.setSelector_of_datasource hd
    (fun d => { d with idle := d.idle.clear }) (.demote uid)
  rw [← heq]
  simp only [step, demote, hd]
  have hs' : (r.mapDatasource uid fun d => { d with idle := d.idle.clear }).selector? d.shard =
      some s := hs
  simp only [hs']
  rfl

theorem Coherent.step_wake (h : r.Coherent) (hd : r.datasource? uid = some d) :
    r.step (.wake uid) =
      (r.mapDatasource uid fun d => { d with failures := 0 }).mapSelector d.shard fun s =>
        s.step (.wake uid) := by
  obtain ⟨s, hs, heq⟩ := h.setSelector_of_datasource hd
    (fun d => { d with failures := 0 }) (.wake uid)
  rw [← heq]
  simp only [step, wake, hd]
  have hs' : (r.mapDatasource uid fun d => { d with failures := 0 }).selector? d.shard = some s :=
    hs
  simp only [hs']
  rfl

/-- A demotion does not look at the reports. -/
theorem demote_withReports (r : Repository) (reports : List String) (uid : String) :
    (({ r with reports } : Repository).demote uid).2 = { (r.demote uid).2 with reports } := by
  have hd : ({ r with reports } : Repository).datasource? uid = r.datasource? uid := rfl
  simp only [demote, hd]
  cases r.datasource? uid with
  | none => rfl
  | some d =>
    simp only [selector?, mapDatasource]
    cases r.selectors.find? fun s => s.shard == d.shard <;> rfl

theorem step_demote_of_not (h : ¬ r.Knows uid) : r.step (.demote uid) = r := by
  rw [knows_iff, Bool.not_eq_true, Option.isSome_eq_false_iff, Option.isNone_iff_eq_none] at h
  simp only [step, demote, h]

theorem step_wake_of_not (h : ¬ r.Knows uid) : r.step (.wake uid) = r := by
  rw [knows_iff, Bool.not_eq_true, Option.isSome_eq_false_iff, Option.isNone_iff_eq_none] at h
  simp only [step, wake, h]

theorem Coherent.mapDatasource (h : r.Coherent) {f : Datasource → Datasource}
    (hf : ∀ d, ((f d).settings, (f d).shard, (f d).member) = (d.settings, d.shard, d.member))
    (uid : String) : (r.mapDatasource uid f).Coherent :=
  h.of_frame (frame_mapDatasource hf r uid) h.sound h.reported

theorem Coherent.mapSelector (h : r.Coherent) (shard : String) (x : Selector.Step) :
    (r.mapSelector shard fun s => s.step x).Coherent := by
  apply h.of_frame (frame_mapSelector (fun s => Selector.frame_step s x) r shard) _ h.reported
  intro t ht
  obtain ⟨s, hs, rfl⟩ := List.mem_map.1 ht
  split
  · exact Selector.sound_step (h.sound s hs) x
  · exact h.sound s hs

theorem Coherent.withReports (h : r.Coherent) {reports : List String}
    (hreports : ∀ uid ∈ reports, r.Knows uid) : ({ r with reports } : Repository).Coherent :=
  h.of_frame rfl h.sound hreports

/-- What a step leaves as it is, and that the repository stays coherent. -/
theorem Coherent.step_spec (h : r.Coherent) (x : Step) :
    (r.step x).Coherent ∧ (r.step x).frame = r.frame := by
  cases x with
  | select q draw =>
    rcases h.step_select q draw with heq | heq
    · rw [heq]
      exact ⟨h, rfl⟩
    · rw [heq]
      exact ⟨h.mapSelector _ _, frame_mapSelector (fun s => Selector.frame_step s _) _ _⟩
  | report uid =>
    rw [step_report]
    split
    · next hknown =>
      have hreports : ∀ v ∈ r.reports ++ [uid], r.Knows v := by
        intro v hv
        rcases List.mem_append.1 hv with hv | hv
        · exact h.reported v hv
        · exact List.mem_singleton.1 hv ▸ knows_iff.2 hknown
      have hframe := frame_mapDatasource
        (f := fun d => { d with failures := d.failures + 1 }) (fun _ => by rfl) r uid
      exact ⟨h.of_frame hframe h.sound hreports, hframe⟩
    · exact ⟨h, rfl⟩
  | takeIdle uid =>
    simp only [step, takeIdle?]
    cases (r.datasource? uid).bind fun d => d.idle.take? with
    | none => exact ⟨h, rfl⟩
    | some taken =>
      exact ⟨h.mapDatasource (fun _ => by rfl) uid, frame_mapDatasource (fun _ => by rfl) r uid⟩
  | giveBack uid number =>
    exact ⟨h.mapDatasource (fun _ => by rfl) uid, frame_mapDatasource (fun _ => by rfl) r uid⟩
  | takeReports => exact ⟨h.withReports nofun, rfl⟩
  | demote uid =>
    by_cases hknown : r.Knows uid
    · obtain ⟨d, hd⟩ := exists_datasource hknown
      rw [h.step_demote hd]
      refine ⟨(h.mapDatasource (fun _ => by rfl) uid).mapSelector _ _, ?_⟩
      rw [frame_mapSelector fun s => Selector.frame_step s _]
      exact frame_mapDatasource (fun _ => by rfl) r uid
    · rw [step_demote_of_not hknown]
      exact ⟨h, rfl⟩
  | wake uid =>
    by_cases hknown : r.Knows uid
    · obtain ⟨d, hd⟩ := exists_datasource hknown
      rw [h.step_wake hd]
      refine ⟨(h.mapDatasource (fun _ => by rfl) uid).mapSelector _ _, ?_⟩
      rw [frame_mapSelector fun s => Selector.frame_step s _]
      exact frame_mapDatasource (fun _ => by rfl) r uid
    · rw [step_wake_of_not hknown]
      exact ⟨h, rfl⟩

/-- Behind any history a repository is coherent if it was before, and has the same frame. -/
theorem Coherent.after_spec (h : r.Coherent) (steps : List Step) :
    (r.after steps).Coherent ∧ (r.after steps).frame = r.frame := by
  induction steps generalizing r with
  | nil => exact ⟨h, rfl⟩
  | cons x steps ih =>
    obtain ⟨hstep, hframe⟩ := h.step_spec x
    obtain ⟨hafter, hrest⟩ := ih hstep
    exact ⟨hafter, hrest.trans hframe⟩

/-! ### Building repositories -/

section Build

variable {declared : List DatasourceSettings} {shard : String} {built ds : List Datasource}
  {members : List MemberSettings} {shards : List ShardSettings} {settings : Settings}

/-- The datasources of the members of a shard stand behind the others, each under a name of its
own. -/
theorem addMembers_spec (hbuilt : (built.map Datasource.uid).Nodup)
    (h : addMembers declared shard built members = .ok ds) :
    (ds.map Datasource.uid).Nodup ∧ ds.map Datasource.home =
      built.map Datasource.home ++ members.map fun m => (shard, m.uid) := by
  induction members generalizing built with
  | nil =>
    cases h
    exact ⟨hbuilt, (List.append_nil _).symm⟩
  | cons m members ih =>
    rw [addMembers] at h
    split at h
    · cases h
    · next d hd =>
      have hfound := List.find?_some (p := fun d : DatasourceSettings => d.uid == m.uid) hd
      have huid : d.uid = m.uid := beq_iff_eq.1 hfound
      split at h
      · cases h
      · next hnew =>
        have hnot : d.uid ∉ built.map Datasource.uid := by
          intro hmem
          obtain ⟨e, he, heuid⟩ := List.mem_map.1 hmem
          exact hnew (List.any_eq_true.2 ⟨e, he, beq_iff_eq.2 (heuid.trans huid)⟩)
        have hnext : ((built ++ [(⟨d, shard, m, 0, IdleQueue.empty d.poolSize⟩ : Datasource)]).map
            Datasource.uid).Nodup := by
          rw [List.map_append]
          exact hbuilt.append (List.nodup_singleton _) (List.disjoint_singleton.2 hnot)
        obtain ⟨hnodup, hpairs⟩ := ih hnext h
        refine ⟨hnodup, ?_⟩
        rw [hpairs, List.map_append, List.append_assoc]
        show _ ++ ((shard, d.uid) :: _) = _
        rw [huid]
        rfl

/-- A repository of which shards have been added: it is coherent, and nothing has happened to it. -/
structure Fresh (r : Repository) : Prop where
  /-- It is coherent. -/
  coherent : r.Coherent
  /-- Nothing was reported. -/
  reports : r.reports = []
  /-- Every member is in use. -/
  inUse : ∀ s ∈ r.selectors, s.abnormal = []

theorem fresh_addShards (hr : r.Fresh) (h : addShards declared r shards = .ok r') : r'.Fresh := by
  induction shards generalizing r with
  | nil =>
    cases h
    exact hr
  | cons x shards ih =>
    obtain ⟨ds, hds, h⟩ := bind_eq_ok_iff.1 h
    obtain ⟨s, hs, h⟩ := bind_eq_ok_iff.1 h
    split at h
    · cases h
    · next hnew =>
      apply ih _ h
      obtain ⟨hnodup, hpairs⟩ := addMembers_spec hr.coherent.names hds
      obtain ⟨hshard, hmembers, habnormal, -, hsound⟩ := Selector.of_build hs
      have hdistinct : (x.members.map MemberSettings.uid).Nodup := by
        have huids := congrArg (List.map Prod.snd) hpairs
        simp only [List.map_map, List.map_append, Function.comp_def] at huids
        have hall : (ds.map Datasource.uid) = _ := huids
        rw [hall] at hnodup
        exact (List.nodup_append.1 hnodup).2.1
      refine ⟨⟨?_, hnodup, ?_, ?_, ?_⟩, hr.reports, ?_⟩
      · rw [List.map_append]
        refine hr.coherent.shards.append (List.nodup_singleton _) (List.disjoint_singleton.2 ?_)
        rw [hshard]
        intro hmem
        obtain ⟨t, ht, htshard⟩ := List.mem_map.1 hmem
        exact hnew (List.any_eq_true.2 ⟨t, ht, beq_iff_eq.2 htshard⟩)
      · show (ds.map _) = (r.selectors ++ [s]).flatMap _
        rw [hpairs, hr.coherent.members, List.flatMap_append, List.flatMap_singleton,
          Selector.homes, hshard, hmembers]
      · intro t ht
        rcases List.mem_append.1 ht with ht | ht
        · exact hr.coherent.sound t ht
        · exact List.mem_singleton.1 ht ▸ hsound hdistinct
      · intro uid huid
        rw [hr.reports] at huid
        cases huid
      · intro t ht
        rcases List.mem_append.1 ht with ht | ht
        · exact hr.inUse t ht
        · exact List.mem_singleton.1 ht ▸ habnormal

/-- A repository that is built is coherent, without reports, and with every member in use. -/
theorem fresh_build (h : build settings = .ok r) : r.Fresh := by
  unfold build at h
  split at h
  · cases h
  · have hempty : (⟨[], [], []⟩ : Repository).Coherent :=
      ⟨List.nodup_nil, List.nodup_nil, rfl, fun s hs => absurd hs List.not_mem_nil,
        fun uid huid => absurd huid List.not_mem_nil⟩
    exact fresh_addShards ⟨hempty, rfl, fun s hs => absurd hs List.not_mem_nil⟩ h

end Build

/-! ### Members out of use -/

theorem knows_of_frame (h : r'.frame = r.frame) : r'.Knows uid ↔ r.Knows uid := by
  have huids := congrArg (List.map fun f => f.1.uid) (Prod.mk.inj h).1
  simp only [List.map_map, Function.comp_def] at huids
  have hmem : ∀ t : Repository, t.Knows uid ↔ uid ∈ t.datasources.map fun d => d.settings.uid := by
    intro t
    simp [Knows, Datasource.uid]
  rw [hmem, hmem, huids]

/-- A waking does not look at the reports. -/
theorem reports_wake (r : Repository) (uid : String) : (r.wake uid).2.reports = r.reports := by
  unfold wake
  split
  · rfl
  · simp only
    split <;> rfl

/-- Which members are out of use follows from what is said of each selector. -/
theorem outOfUse_mapSelector {shard : String} {f : Selector → Selector} :
    (r.mapSelector shard f).OutOfUse v ↔
      ∃ s ∈ r.selectors, v ∈ (if s.shard == shard then f s else s).abnormal := by
  simp [OutOfUse, mapSelector]

/-- A demotion takes a datasource of the repository out of use, and no other. -/
theorem Coherent.outOfUse_demote (h : r.Coherent) (uid v : String) :
    (r.step (.demote uid)).OutOfUse v ↔ r.OutOfUse v ∨ v = uid ∧ r.Knows uid := by
  by_cases hknown : r.Knows uid
  · obtain ⟨d, hd⟩ := exists_datasource hknown
    obtain ⟨hmem, rfl⟩ := h.datasource?_eq_some_iff.1 hd
    rw [h.step_demote hd, outOfUse_mapSelector]
    constructor
    · rintro ⟨s, hs, hv⟩
      split at hv
      · rcases Selector.mem_abnormal_demote.1 hv with hv | ⟨rfl, -⟩
        · exact Or.inl ⟨s, hs, hv⟩
        · exact Or.inr ⟨rfl, hknown⟩
      · exact Or.inl ⟨s, hs, hv⟩
    · rintro (⟨s, hs, hv⟩ | ⟨rfl, -⟩)
      · refine ⟨s, hs, ?_⟩
        split
        · exact Selector.mem_abnormal_demote.2 (Or.inl hv)
        · exact hv
      · obtain ⟨s, hs, hshard, hmember⟩ := h.exists_selector hmem
        refine ⟨s, hs, ?_⟩
        rw [if_pos (beq_iff_eq.2 hshard)]
        exact Selector.mem_abnormal_demote.2 (Or.inr ⟨rfl, hmember⟩)
  · rw [step_demote_of_not hknown]
    simp [hknown]

/-- A waking takes a datasource back into use, and no other. -/
theorem Coherent.outOfUse_wake (h : r.Coherent) (uid v : String) :
    (r.step (.wake uid)).OutOfUse v ↔ r.OutOfUse v ∧ v ≠ uid := by
  by_cases hknown : r.Knows uid
  · obtain ⟨d, hd⟩ := exists_datasource hknown
    obtain ⟨hmem, rfl⟩ := h.datasource?_eq_some_iff.1 hd
    rw [h.step_wake hd, outOfUse_mapSelector]
    constructor
    · rintro ⟨s, hs, hv⟩
      split at hv
      · obtain ⟨hv, hne⟩ := (h.sound s hs).mem_abnormal_wake.1 hv
        exact ⟨⟨s, hs, hv⟩, hne⟩
      · next hshard =>
        refine ⟨⟨s, hs, hv⟩, ?_⟩
        rintro rfl
        -- the one shard in which it can be out of use is its own
        obtain ⟨t, ht, htshard, m, hm, hmuid⟩ := h.exists_selector hmem
        obtain rfl := h.selector_unique ht hm hs (hmuid ▸ hv)
        exact hshard (beq_iff_eq.2 htshard)
    · rintro ⟨⟨s, hs, hv⟩, hne⟩
      refine ⟨s, hs, ?_⟩
      split
      · exact (h.sound s hs).mem_abnormal_wake.2 ⟨hv, hne⟩
      · exact hv
  · rw [step_wake_of_not hknown]
    constructor
    · intro hout
      exact ⟨hout, fun heq => hknown (heq ▸ h.knows_of_outOfUse hout)⟩
    · exact And.left

/-! ### Use -/

/-- What statements do to a repository. -/
def Step.isUse : Step → Bool
  | .select .. | .report _ | .takeIdle _ | .giveBack .. => true
  | .takeReports | .demote _ | .wake _ => false

/-- A repository comes from another by what statements do. -/
def Uses (r r' : Repository) : Prop :=
  ∃ steps, (∀ x ∈ steps, x.isUse = true) ∧ r.after steps = r'

theorem Uses.refl (r : Repository) : r.Uses r :=
  ⟨[], nofun, rfl⟩

theorem Uses.trans (h : r.Uses r') (h' : r'.Uses r'') : r.Uses r'' := by
  obtain ⟨steps, hsteps, rfl⟩ := h
  obtain ⟨rest, hrest, rfl⟩ := h'
  refine ⟨steps ++ rest, ?_, List.foldl_append⟩
  intro x hx
  rcases List.mem_append.1 hx with hx | hx
  · exact hsteps x hx
  · exact hrest x hx

theorem uses_step {x : Step} (hx : x.isUse = true) : r.Uses (r.step x) :=
  ⟨[x], by simpa using hx, rfl⟩

/-- What holds of the reports and of the members out of use while statements run: reports only come
in addition, and nothing goes out of use or comes back. -/
theorem Coherent.use_spec (h : r.Coherent) {x : Step} (hx : x.isUse = true) :
    (∃ new, (r.step x).reports = r.reports ++ new) ∧
      ∀ v, (r.step x).OutOfUse v ↔ r.OutOfUse v := by
  cases x with
  | select q draw =>
    rcases h.step_select q draw with heq | heq
    · rw [heq]
      exact ⟨⟨[], (List.append_nil _).symm⟩, fun _ => Iff.rfl⟩
    · rw [heq]
      refine ⟨⟨[], (List.append_nil _).symm⟩, fun v => ?_⟩
      rw [outOfUse_mapSelector, OutOfUse]
      refine exists_congr fun s => and_congr_right fun _ => ?_
      split
      · rw [Selector.step, Selector.abnormal_select]
      · exact Iff.rfl
  | report uid =>
    rw [step_report]
    split
    · exact ⟨⟨[uid], rfl⟩, fun _ => Iff.rfl⟩
    · exact ⟨⟨[], (List.append_nil _).symm⟩, fun _ => Iff.rfl⟩
  | takeIdle uid =>
    simp only [step, takeIdle?]
    cases (r.datasource? uid).bind fun d => d.idle.take? with
    | none => exact ⟨⟨[], (List.append_nil _).symm⟩, fun _ => Iff.rfl⟩
    | some taken => exact ⟨⟨[], (List.append_nil _).symm⟩, fun _ => Iff.rfl⟩
  | giveBack uid number => exact ⟨⟨[], (List.append_nil _).symm⟩, fun _ => Iff.rfl⟩
  | takeReports => cases hx
  | demote uid => cases hx
  | wake uid => cases hx

/-- What statements do keeps a repository coherent, adds reports at most, and leaves the members out
of use as they are. -/
theorem Uses.spec (h : r.Uses r') (hr : r.Coherent) :
    r'.Coherent ∧ r'.frame = r.frame ∧ (∃ new, r'.reports = r.reports ++ new) ∧
      ∀ v, r'.OutOfUse v ↔ r.OutOfUse v := by
  obtain ⟨steps, hsteps, rfl⟩ := h
  induction steps generalizing r with
  | nil => exact ⟨hr, rfl, ⟨[], (List.append_nil _).symm⟩, fun _ => Iff.rfl⟩
  | cons x steps ih =>
    obtain ⟨hstep, hframe⟩ := hr.step_spec x
    obtain ⟨⟨new, hnew⟩, hout⟩ := hr.use_spec (hsteps x List.mem_cons_self)
    obtain ⟨hafter, hframe', ⟨more, hmore⟩, hout'⟩ :=
      ih hstep fun y hy => hsteps y (List.mem_cons_of_mem _ hy)
    refine ⟨hafter, hframe'.trans hframe, ⟨new ++ more, ?_⟩, fun v => (hout' v).trans (hout v)⟩
    rw [← List.append_assoc, ← hnew]
    exact hmore

end Repository

end ShardRouting
