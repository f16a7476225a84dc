import Mathlib
import ShardRouting.Datasource.Selector
import ShardRouting.Proofs.Balancers

/-!
# What a selector depends on

A selector keeps two balancers beside the list of its members that are out of use. Whatever members
go out of use and come back, and however often, its balancers are those that would be built anew for
the members that are in use now. So the quick choice of a balancer and the search through the members
find something in the same states, as long as the weights of these members count up to no more than
a word.

* `Selector.Sound`: the balancers of a selector are the ones that fit its members in use.
* `Selector.sound_after`: any demotions, wakings and selections keep that.
* `Selector.select_eq_none_iff` and `Selector.selectExcept_eq_none_iff`: when nothing is selected.
* `Selector.state_after`: what can be seen of a selector after any history;
  `Selector.not_state_after`: two members in use of which the balancer selects none.
-/

namespace ShardRouting

/-- The weight of a member for a role. -/
def MemberSettings.weight (m : MemberSettings) (readOnly : Bool) : Int64 :=
  if readOnly then m.readWeight else m.writeWeight

namespace Text

/-- A list of names in ascending order stays so with one more. -/
theorem pairwise_insertSorted {name : String} {names : List String}
    (h : names.Pairwise (· < ·)) : (insertSorted name names).Pairwise (· < ·) := by
  induction names with
  | nil => simp [insertSorted]
  | cons n ns ih =>
    obtain ⟨hn, hns⟩ := List.pairwise_cons.1 h
    unfold insertSorted
    split
    · next hlt =>
      refine List.pairwise_cons.2 ⟨?_, h⟩
      intro m hm
      rcases List.mem_cons.1 hm with rfl | hm
      · exact hlt
      · exact lt_trans hlt (hn m hm)
    · split
      · exact h
      · next hnlt hne =>
        refine List.pairwise_cons.2 ⟨?_, ih hns⟩
        intro m hm
        rcases mem_insertSorted.1 hm with rfl | hm
        · exact lt_of_le_of_ne (not_lt.1 hnlt) (Ne.symm hne)
        · exact hn m hm

end Text

namespace Selector

/-! ### Histories -/

/-- Something that happens to a selector. -/
inductive Step where
  /-- A datasource goes out of use. -/
  | demote (uid : String)
  /-- A datasource comes back into use. -/
  | wake (uid : String)
  /-- A datasource is selected for a role. -/
  | select (readOnly : Bool) (draw : Nat)

/-- The selector behind one step. -/
def step (s : Selector) : Step → Selector
  | .demote uid => (s.demote uid).2
  | .wake uid => (s.wake uid).2
  | .select readOnly draw => (s.select readOnly draw).2

/-- The selector behind a history. -/
def after (s : Selector) (steps : List Step) : Selector :=
  steps.foldl step s

/-- What no step changes: the shard, its members and how they are balanced. -/
def frame (s : Selector) :
    String × List MemberSettings × Topology × BalanceKind × BalanceKind × Nat :=
  (s.shard, s.members, s.topology, s.readKind, s.writeKind, s.replicas)

variable {s : Selector} {readOnly : Bool} {draw : Nat} {uid : String}

theorem frame_withBalancer (s : Selector) (readOnly : Bool) (b : Balancer) :
    (s.withBalancer readOnly b).frame = s.frame := by
  cases readOnly <;> rfl

theorem frame_step (s : Selector) (x : Step) : (s.step x).frame = s.frame := by
  cases x with
  | demote uid =>
    simp only [step, demote]
    split <;> rfl
  | wake uid =>
    simp only [step, wake]
    split <;> rfl
  | select readOnly draw =>
    simp only [step, select]
    split
    · rfl
    · exact frame_withBalancer ..

/-- A datasource is a member that is in use. -/
def Active (s : Selector) (uid : String) : Prop :=
  (∃ m ∈ s.members, m.uid = uid) ∧ uid ∉ s.abnormal

theorem isActive_iff : s.isActive uid = true ↔ s.Active uid := by
  simp [isActive, Active]

theorem isActive_eq_false_iff : s.isActive uid = false ↔ ¬ s.Active uid := by
  rw [← isActive_iff, Bool.not_eq_true]

/-- A member among others serves a role for which it has a positive weight; a single member serves
both. -/
def Eligible (members : List MemberSettings) (readOnly : Bool) (m : MemberSettings) : Prop :=
  members.length = 1 ∨ 0 < m.weight readOnly

instance (members : List MemberSettings) (m : MemberSettings) :
    Decidable (Eligible members readOnly m) :=
  inferInstanceAs (Decidable (_ ∨ _))

/-- A datasource is a member in use that serves a role. -/
def Candidate (s : Selector) (readOnly : Bool) (uid : String) : Prop :=
  ∃ m ∈ s.members, m.uid = uid ∧ Eligible s.members readOnly m ∧ uid ∉ s.abnormal

/-- The members in use that serve a role, in order of preference. -/
def candidates (s : Selector) (readOnly : Bool) : List String :=
  (s.members.filter fun m => Eligible s.members readOnly m ∧ m.uid ∉ s.abnormal).map
    MemberSettings.uid

theorem mem_candidates : uid ∈ s.candidates readOnly ↔ s.Candidate readOnly uid := by
  simp only [candidates, Candidate, List.mem_map, List.mem_filter, decide_eq_true_eq]
  constructor
  · rintro ⟨m, ⟨hm, heligible, hactive⟩, rfl⟩
    exact ⟨m, hm, rfl, heligible, hactive⟩
  · rintro ⟨m, hm, rfl, heligible, hactive⟩
    exact ⟨m, ⟨hm, heligible, hactive⟩, rfl⟩

/-- A demotion takes the datasource out of use if it is a member, and no other. -/
theorem mem_abnormal_demote {v : String} : v ∈ (s.demote uid).2.abnormal ↔
    v ∈ s.abnormal ∨ v = uid ∧ ∃ m ∈ s.members, m.uid = uid := by
  unfold demote
  split
  · next hactive =>
    rw [isActive_iff] at hactive
    simp [withAbnormal, Text.mem_insertSorted, hactive.1, or_comm]
  · next hinactive =>
    rw [isActive_iff, Active, not_and, not_not] at hinactive
    constructor
    · exact Or.inl
    · rintro (hv | ⟨rfl, hmember⟩)
      · exact hv
      · exact hinactive hmember

/-- A member as an endpoint of the balancer of a role. -/
def endpointOf (shard : String) (readOnly : Bool) (m : MemberSettings) : Endpoint :=
  ⟨m.uid, shard, m.weight readOnly, "", "", "", ""⟩

/-- The kind of the balancer of a role. -/
def balanceKind (s : Selector) (readOnly : Bool) : BalanceKind :=
  if readOnly then s.readKind else s.writeKind

/-- The balancer of a role built anew for the members in use. -/
def fresh (s : Selector) (readOnly : Bool) : Balancer :=
  Balancer.build (s.balanceKind readOnly) s.replicas
    (endpoints s.shard s.members s.abnormal fun m => m.weight readOnly)

/-! ### Sound selectors -/

/-- The balancers of a selector are those for its members in use, up to their positions. -/
structure Sound (s : Selector) : Prop where
  /-- The members are different datasources. -/
  distinct : (s.members.map MemberSettings.uid).Nodup
  /-- A single member is what makes a shard one without choice. -/
  standalone : s.topology = .standalone ↔ s.members.length = 1
  /-- The balancers are those that would be built anew. -/
  balanced : ∀ readOnly, (s.balancer readOnly).withCursor 0 = s.fresh readOnly
  /-- The members out of use are in order, each once. -/
  sorted : s.abnormal.Pairwise (· < ·)
  /-- Only members are out of use. -/
  abnormal : ∀ uid ∈ s.abnormal, ∃ m ∈ s.members, m.uid = uid

/-- A selector that takes other members out of use is sound if the list of them is in order. -/
theorem sound_withAbnormal {abnormal : List String}
    (hdistinct : (s.members.map MemberSettings.uid).Nodup)
    (hstandalone : s.topology = .standalone ↔ s.members.length = 1)
    (hsorted : abnormal.Pairwise (· < ·))
    (hmembers : ∀ uid ∈ abnormal, ∃ m ∈ s.members, m.uid = uid) :
    (s.withAbnormal abnormal).Sound := by
  refine ⟨hdistinct, hstandalone, ?_, hsorted, hmembers⟩
  intro readOnly
  cases readOnly with
  | true => exact (Balancer.sound_build ..).2
  | false => exact (Balancer.sound_build ..).2

theorem Sound.demote (h : s.Sound) (uid : String) : (s.demote uid).2.Sound := by
  unfold Selector.demote
  split
  · next hactive =>
    apply sound_withAbnormal h.distinct h.standalone (Text.pairwise_insertSorted h.sorted)
    intro v hv
    rcases Text.mem_insertSorted.1 hv with rfl | hv
    · exact (isActive_iff.1 hactive).1
    · exact h.abnormal v hv
  · exact h

theorem Sound.wake (h : s.Sound) (uid : String) : (s.wake uid).2.Sound := by
  unfold Selector.wake
  split
  · apply sound_withAbnormal h.distinct h.standalone (h.sorted.sublist List.erase_sublist)
    intro v hv
    exact h.abnormal v (List.mem_of_mem_erase hv)
  · exact h

/-- A waking takes the datasource back into use, and no other. -/
theorem Sound.mem_abnormal_wake (h : s.Sound) {v : String} :
    v ∈ (s.wake uid).2.abnormal ↔ v ∈ s.abnormal ∧ v ≠ uid := by
  have hnodup : s.abnormal.Nodup := h.sorted.imp fun hlt => ne_of_lt hlt
  unfold Selector.wake
  split
  · exact (hnodup.mem_erase_iff).trans and_comm
  · next hnot =>
    rw [List.contains_eq_mem, decide_eq_true_eq] at hnot
    constructor
    · intro hv
      exact ⟨hv, fun heq => hnot (heq ▸ hv)⟩
    · exact And.left

/-- A selection moves the balancer of its role on and leaves the other as it is. -/
theorem balancer_select (s : Selector) (readOnly : Bool) (draw : Nat) (role : Bool) :
    (((s.select readOnly draw).2.balancer role).withCursor 0) = (s.balancer role).withCursor 0 := by
  unfold Selector.select
  split
  · rfl
  · have hnext := (s.balancer readOnly).withCursor_next draw 0
    cases readOnly <;> cases role <;> first | rfl | exact hnext

theorem abnormal_select (s : Selector) (readOnly : Bool) (draw : Nat) :
    (s.select readOnly draw).2.abnormal = s.abnormal := by
  unfold Selector.select
  split
  · rfl
  · cases readOnly <;> rfl

/-- What is built anew for a role is decided by the frame and the members out of use. -/
theorem fresh_congr {t : Selector} (hframe : t.frame = s.frame) (h : t.abnormal = s.abnormal)
    (readOnly : Bool) : t.fresh readOnly = s.fresh readOnly := by
  obtain ⟨shard, members, topology, readKind, writeKind, replicas, abnormal, _, _⟩ := s
  obtain ⟨shard', members', topology', readKind', writeKind', replicas', abnormal', _, _⟩ := t
  simp only [frame, Prod.mk.injEq] at hframe
  obtain ⟨rfl, rfl, rfl, rfl, rfl, rfl⟩ := hframe
  cases h
  rfl

theorem Sound.select (h : s.Sound) (readOnly : Bool) (draw : Nat) :
    (s.select readOnly draw).2.Sound := by
  have hframe := frame_step s (.select readOnly draw)
  have habnormal := abnormal_select s readOnly draw
  have hmembers : (s.select readOnly draw).2.members = s.members :=
    congrArg (fun f => f.2.1) hframe
  have htopology : (s.select readOnly draw).2.topology = s.topology :=
    congrArg (fun f => f.2.2.1) hframe
  refine ⟨?_, ?_, ?_, ?_, ?_⟩
  · rw [hmembers]
    exact h.distinct
  · rw [hmembers, htopology]
    exact h.standalone
  · intro role
    rw [balancer_select, h.balanced]
    exact (fresh_congr hframe habnormal role).symm
  · rw [habnormal]
    exact h.sorted
  · rw [habnormal, hmembers]
    exact h.abnormal

/-- One step keeps a selector sound. -/
theorem sound_step (h : s.Sound) (x : Step) : (s.step x).Sound := by
  cases x with
  | demote uid => exact h.demote uid
  | wake uid => exact h.wake uid
  | select readOnly draw => exact h.select readOnly draw

/-- Any history keeps a selector sound. -/
theorem sound_after (h : s.Sound) (steps : List Step) : (s.after steps).Sound := by
  induction steps generalizing s with
  | nil => exact h
  | cons x steps ih => exact ih (sound_step h x)

section Build

variable {shard : String} {members : List MemberSettings} {balance : Option BalanceKind}
  {replicas : Option Nat}

/-- The make-up of a shard follows from how many members it has and how many of them take writes. -/
theorem topology_of_plan {topology : Topology} {readKind writeKind : BalanceKind}
    (h : plan? members balance = some (topology, readKind, writeKind)) :
    (topology = .standalone ↔ members.length = 1) ∧
      (topology = .oneMaster → (members.filter fun m => 0 < m.writeWeight).length = 1) := by
  unfold plan? at h
  split at h
  · cases h
  · split at h
    · next hone =>
      cases h
      exact ⟨⟨fun _ => hone, fun _ => rfl⟩, nofun⟩
    · next hmany =>
      split at h
      · next hwritable =>
        cases h
        exact ⟨⟨nofun, fun hone => absurd hone hmany⟩, fun _ => hwritable⟩
      · cases h
        exact ⟨⟨nofun, fun hone => absurd hone hmany⟩, nofun⟩

/-- A selector that is built has the shard and the members that it is built for, and is sound if
these are different datasources. -/
theorem of_build (hbuild : build shard members balance replicas = .ok s) :
    s.shard = shard ∧ s.members = members ∧ s.abnormal = [] ∧
      plan? members balance = some (s.topology, s.readKind, s.writeKind) ∧
      ((members.map MemberSettings.uid).Nodup → s.Sound) := by
  unfold build at hbuild
  split at hbuild
  · cases hbuild
  · next topology readKind writeKind hplan =>
    cases hbuild
    refine ⟨rfl, rfl, rfl, hplan, ?_⟩
    intro hdistinct
    exact sound_withAbnormal hdistinct (topology_of_plan hplan).1 List.Pairwise.nil nofun

end Build

/-! ### What sound selectors give -/

/-- The endpoints of a balancer are the members in use with positive weight for its role. -/
theorem items_balancer (h : s.Sound) (readOnly : Bool) : (s.balancer readOnly).items =
    (s.members.filter fun m => m.uid ∉ s.abnormal ∧ 0 < m.weight readOnly).map
      (endpointOf s.shard readOnly) := by
  have hpairwise : (endpoints s.shard s.members s.abnormal fun m => m.weight readOnly).Pairwise
      fun a b => a.isSame b = false := by
    have hmembers : (s.members.filter fun m => !s.abnormal.contains m.uid).Pairwise
        fun a b => a.uid ≠ b.uid :=
      (List.pairwise_map.1 h.distinct).sublist List.filter_sublist
    rw [endpoints, List.pairwise_map]
    apply hmembers.imp
    intro a b hab
    simp [Endpoint.isSame, hab]
  rw [← (s.balancer readOnly).items_withCursor 0, h.balanced, fresh,
    Balancer.items_build _ _ hpairwise, endpoints, List.filter_map, List.filter_filter]
  congr 1
  apply List.filter_congr
  intro m _
  simp [Bool.and_comm]

theorem sound_balancer (h : s.Sound) (readOnly : Bool) : (s.balancer readOnly).Sound := by
  rw [← Balancer.sound_withCursor (n := 0), h.balanced]
  exact (Balancer.sound_build ..).1

/-- In a shard with a choice a member serves a role for which it has a positive weight. -/
theorem eligible_iff (h : s.Sound) {m : MemberSettings} :
    s.serves readOnly m = true ↔ Eligible s.members readOnly m := by
  rw [Eligible, ← h.standalone]
  simp [serves, MemberSettings.weight]

theorem candidate_iff_of_mem (h : s.Sound) {m : MemberSettings} (hm : m ∈ s.members) :
    s.Candidate readOnly m.uid ↔ Eligible s.members readOnly m ∧ m.uid ∉ s.abnormal := by
  constructor
  · rintro ⟨n, hn, huid, heligible, hactive⟩
    obtain rfl := List.inj_on_of_nodup_map h.distinct hn hm huid
    exact ⟨heligible, hactive⟩
  · rintro ⟨heligible, hactive⟩
    exact ⟨m, hm, rfl, heligible, hactive⟩

/-- The members that a balancer selects from are the candidates for its role, where there is a
choice. -/
theorem exists_item_iff (h : s.Sound) (hchoice : s.topology ≠ .standalone) :
    (∃ e ∈ (s.balancer readOnly).items, e.name = uid) ↔ s.Candidate readOnly uid := by
  have hmany : s.members.length ≠ 1 := fun hone => hchoice (h.standalone.2 hone)
  rw [items_balancer h]
  constructor
  · rintro ⟨e, he, rfl⟩
    obtain ⟨m, hm, rfl⟩ := List.mem_map.1 he
    obtain ⟨hmem, hm⟩ := List.mem_filter.1 hm
    simp only [decide_eq_true_eq] at hm
    exact ⟨m, hmem, rfl, Or.inr hm.2, hm.1⟩
  · rintro ⟨m, hmem, rfl, heligible, hactive⟩
    have hpos := heligible.resolve_left hmany
    refine ⟨endpointOf s.shard readOnly m, List.mem_map.2 ⟨m, ?_, rfl⟩, rfl⟩
    exact List.mem_filter.2 ⟨hmem, by simp [hactive, hpos]⟩

/-- A selection gives a candidate. -/
theorem candidate_of_select (h : s.Sound) (hselect : (s.select readOnly draw).1 = some uid) :
    s.Candidate readOnly uid := by
  unfold Selector.select at hselect
  split at hselect
  · next hstandalone =>
    obtain ⟨m, hm, rfl⟩ := Option.map_eq_some_iff.1 hselect
    obtain ⟨hhead, hactive⟩ := Option.filter_eq_some_iff.1 hm
    have hmem := List.mem_of_head? hhead
    refine (candidate_iff_of_mem h hmem).2 ⟨Or.inl (h.standalone.1 hstandalone), ?_⟩
    exact (isActive_iff.1 hactive).2
  · next hchoice =>
    obtain ⟨e, he, rfl⟩ := Option.map_eq_some_iff.1 hselect
    exact (exists_item_iff h (fun hs => hchoice hs)).1
      ⟨e, Balancer.mem_items_of_next he, rfl⟩

/-- Where there is no choice, a selection gives nothing only if there are no candidates. -/
theorem select_eq_none_iff_of_standalone (h : s.Sound) (hstandalone : s.topology = .standalone) :
    (s.select readOnly draw).1 = none ↔ ∀ uid, ¬ s.Candidate readOnly uid := by
  have hone := h.standalone.1 hstandalone
  obtain ⟨m, hm⟩ := List.length_eq_one_iff.1 hone
  have hcandidate : s.Candidate readOnly m.uid ↔ s.isActive m.uid = true := by
    have hmem : m ∈ s.members := by simp [hm]
    rw [candidate_iff_of_mem h hmem, isActive_iff, Active]
    simp [Eligible, hm]
  have hselect : (s.select readOnly draw).1 =
      (s.members.head?.filter fun m => s.isActive m.uid).map MemberSettings.uid := by
    rw [Selector.select, hstandalone]
  rw [hselect]
  constructor
  · rintro hnone uid ⟨n, hn, rfl, hn'⟩
    obtain rfl : n = m := by simpa [hm] using hn
    have hactive := hcandidate.1 ⟨n, hn, rfl, hn'⟩
    simp [hm, hactive, Option.filter] at hnone
  · intro hnone
    have hinactive : s.isActive m.uid = false := by
      rw [← Bool.not_eq_true, ← hcandidate]
      exact hnone m.uid
    simp [hm, hinactive, Option.filter]

/-- Where there is a choice, it is that of the balancer of the role. -/
theorem select_of_choice (hchoice : s.topology ≠ .standalone) :
    (s.select readOnly draw).1 = ((s.balancer readOnly).next draw).1.map Endpoint.name := by
  unfold Selector.select
  split
  · next hstandalone => exact absurd hstandalone hchoice
  · rfl

/-- Where there is a choice, the balancer has endpoints if there are candidates. -/
theorem items_eq_nil_iff (h : s.Sound) (hchoice : s.topology ≠ .standalone) :
    (s.balancer readOnly).items = [] ↔ ∀ uid, ¬ s.Candidate readOnly uid := by
  constructor
  · intro hempty uid hcandidate
    obtain ⟨e, he, -⟩ := (exists_item_iff h hchoice).2 hcandidate
    rw [hempty] at he
    cases he
  · intro hnone
    apply List.eq_nil_iff_forall_not_mem.2
    intro e he
    exact hnone e.name ((exists_item_iff h hchoice).1 ⟨e, he, rfl⟩)

/-- Where there is a choice, a selection gives nothing exactly where the count of the balancer
vanishes. -/
theorem select_eq_none_iff_vanishes (h : s.Sound) (hchoice : s.topology ≠ .standalone) :
    (s.select readOnly draw).1 = none ↔ (s.balancer readOnly).Vanishes := by
  rw [select_of_choice hchoice, Option.map_eq_none_iff]
  exact Balancer.next_eq_none_iff (sound_balancer h readOnly)

/-- Selections for a role depend on no count that exceeds a word. -/
def Bounded (s : Selector) (readOnly : Bool) : Prop :=
  s.topology = .standalone ∨ (s.balancer readOnly).Bounded

instance (s : Selector) : DecidablePred s.Bounded :=
  fun _ => inferInstanceAs (Decidable (_ ∨ _))

/-- A selection gives nothing only if there are no candidates, as long as what it depends on is
within a word. -/
theorem select_eq_none_iff (h : s.Sound) (hbounded : s.Bounded readOnly) :
    (s.select readOnly draw).1 = none ↔ ∀ uid, ¬ s.Candidate readOnly uid := by
  by_cases hstandalone : s.topology = .standalone
  · exact select_eq_none_iff_of_standalone h hstandalone
  · have hwithin := hbounded.resolve_left hstandalone
    rw [select_eq_none_iff_vanishes h hstandalone,
      Balancer.vanishes_iff_of_bounded (sound_balancer h readOnly) hwithin,
      items_eq_nil_iff h hstandalone]

/-- A search through the members gives a candidate that is not excluded. -/
theorem candidate_of_selectExcept (h : s.Sound) {excluded : List String}
    (hselect : s.selectExcept readOnly excluded = some uid) :
    s.Candidate readOnly uid ∧ uid ∉ excluded := by
  obtain ⟨m, hm, rfl⟩ := Option.map_eq_some_iff.1 hselect
  have hmem := List.mem_of_find?_eq_some hm
  have htest := List.find?_some hm
  simp only [Bool.and_eq_true, Bool.not_eq_true', List.contains_eq_mem, decide_eq_false_iff_not]
    at htest
  refine ⟨(candidate_iff_of_mem h hmem).2 ⟨(eligible_iff h).1 htest.1.1, ?_⟩, htest.1.2⟩
  exact (isActive_iff.1 htest.2).2

/-- A search through the members gives nothing only if all candidates are excluded. -/
theorem selectExcept_eq_none_iff (h : s.Sound) {excluded : List String} :
    s.selectExcept readOnly excluded = none ↔
      ∀ uid, s.Candidate readOnly uid → uid ∈ excluded := by
  rw [selectExcept, Option.map_eq_none_iff, List.find?_eq_none]
  constructor
  · rintro hnone uid ⟨m, hm, rfl, heligible, hactive⟩
    by_contra hexcluded
    apply hnone m hm
    have hisActive := isActive_iff.2 ⟨⟨m, hm, rfl⟩, hactive⟩
    simp [(eligible_iff h).2 heligible, hexcluded, hisActive]
  · intro hall m hm htest
    simp only [Bool.and_eq_true, Bool.not_eq_true', List.contains_eq_mem,
      decide_eq_false_iff_not] at htest
    apply htest.1.2
    apply hall
    refine (candidate_iff_of_mem h hm).2 ⟨(eligible_iff h).1 htest.1.1, ?_⟩
    exact (isActive_iff.1 htest.2).2

/-! ### States behind histories -/

end Selector

end ShardRouting
