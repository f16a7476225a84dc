import ShardRouting.Cluster.World
import ShardRouting.Proofs.Balancers
import ShardRouting.Proofs.Outcome

/-!
# What a world keeps

Connections are opened and given back, failures are reported, and cycles go on, but the databases
keep their ways to answer, and a selector gives no datasource that it did not offer before.

* `Repository.Offers`: the datasources that a selection for a shard and a role may give.
* `World.Follows`: the databases answer as before, and no shard offers more than before.
* `World.seek_within`: a search for a connection comes to a datasource that is offered for it.
* `World.CountsBy`: what a write changes is decided by its shard, its text and its values.
-/

namespace ShardRouting

/-! ### Selectors -/

namespace Selector

/-- The datasources that a selector may give for a role: the members that serve it, and those among
which it balances for it. -/
def Offers (s : Selector) (readOnly : Bool) (uid : String) : Prop :=
  (∃ m ∈ s.members, s.serves readOnly m ∧ m.uid = uid) ∨
    ∃ e ∈ (s.balancer readOnly).items, e.name = uid

variable {s : Selector} {readOnly : Bool} {draw : Nat} {uid : String}

theorem offers_of_select (h : (s.select readOnly draw).1 = some uid) : s.Offers readOnly uid := by
  unfold select at h
  split at h
  · next hstandalone =>
    obtain ⟨m, hm, rfl⟩ := Option.map_eq_some_iff.1 h
    refine Or.inl ⟨m, List.mem_of_head? (Option.eq_some_of_filter_eq_some hm), ?_, rfl⟩
    rw [serves, hstandalone]
    rfl
  · obtain ⟨e, he, rfl⟩ := Option.map_eq_some_iff.1 h
    exact Or.inr ⟨e, Balancer.mem_items_of_next he, rfl⟩

/-- Selections leave the offers for each role as they are. -/
theorem offers_select {role : Bool} :
    (s.select readOnly draw).2.Offers role uid ↔ s.Offers role uid := by
  unfold select
  split
  · exact Iff.rfl
  · have hitems : ((s.withBalancer readOnly ((s.balancer readOnly).next draw).2).balancer
        role).items = (s.balancer role).items := by
      have hnext := (s.balancer readOnly).items_next draw
      cases readOnly <;> cases role <;> first | rfl | exact hnext
    have hserves : ∀ m, (s.withBalancer readOnly ((s.balancer readOnly).next draw).2).serves
        role m = s.serves role m := by
      intro m
      cases readOnly <;> rfl
    have hmembers : (s.withBalancer readOnly ((s.balancer readOnly).next draw).2).members =
        s.members := by
      cases readOnly <;> rfl
    simp only [Offers, hitems, hserves, hmembers]

theorem shard_select : (s.select readOnly draw).2.shard = s.shard := by
  unfold select
  split
  · rfl
  · cases readOnly <;> rfl

theorem offers_of_selectExcept {excluded : List String}
    (h : s.selectExcept readOnly excluded = some uid) : s.Offers readOnly uid := by
  obtain ⟨m, hm, rfl⟩ := Option.map_eq_some_iff.1 h
  have hserves := List.find?_some hm
  simp only [Bool.and_eq_true] at hserves
  exact Or.inl ⟨m, List.mem_of_find?_eq_some hm, hserves.1.1, rfl⟩

end Selector

/-! ### Repositories -/

namespace Repository

/-- The datasources that a selection for a shard and a role may give. -/
def Offers (r : Repository) (shard : String) (readOnly : Bool) (uid : String) : Prop :=
  ∃ s ∈ r.selectors, s.shard = shard ∧ s.Offers readOnly uid

variable {r r' : Repository} {q : ConnectionRequest} {shard uid : String}

theorem selector_eq_ok {s : Selector} (h : r.selector shard = .ok s) :
    s ∈ r.selectors ∧ s.shard = shard := by
  unfold selector at h
  split at h
  · next s' hs =>
    cases h
    have hshard := List.find?_some hs
    exact ⟨List.mem_of_find?_eq_some hs, beq_iff_eq.1 hshard⟩
  · cases h

/-- A selection that names no datasource is made by the selector of the shard, which alone may
change by it. -/
theorem select_eq_ok {draw : Nat} {given : Option String} (hnamed : q.named = none)
    (h : r.select q draw = .ok (given, r')) :
    ∃ s ∈ r.selectors, s.shard = q.shard ∧ given = (s.select q.readOnly draw).1 ∧
      r' = r.setSelector (s.select q.readOnly draw).2 := by
  obtain ⟨s, hs, h⟩ := bind_eq_ok_iff.1 h
  obtain ⟨hmem, hshard⟩ := selector_eq_ok hs
  rw [hnamed] at h
  obtain ⟨rfl, rfl⟩ := Prod.mk.inj (Except.ok.inj h)
  exact ⟨s, hmem, hshard, rfl, rfl⟩

/-- A selection gives what the shard offers. -/
theorem offers_of_select {draw : Nat} (hnamed : q.named = none)
    (h : r.select q draw = .ok (some uid, r')) : r.Offers q.shard q.readOnly uid := by
  obtain ⟨s, hmem, hshard, hgiven, -⟩ := select_eq_ok hnamed h
  exact ⟨s, hmem, hshard, Selector.offers_of_select hgiven.symm⟩

/-- Behind a selection no shard offers more than before. -/
theorem offers_select {draw : Nat} {given : Option String} (hnamed : q.named = none)
    (h : r.select q draw = .ok (given, r')) {role : Bool} (hoffers : r'.Offers shard role uid) :
    r.Offers shard role uid := by
  obtain ⟨s, hmem, -, -, rfl⟩ := select_eq_ok hnamed h
  obtain ⟨u, hu, hushard, hoffers⟩ := hoffers
  obtain ⟨v, hv, hvu⟩ := List.mem_map.1 hu
  split at hvu
  · subst hvu
    exact ⟨s, hmem, Selector.shard_select.symm.trans hushard, Selector.offers_select.1 hoffers⟩
  · subst hvu
    exact ⟨v, hv, hushard, hoffers⟩

theorem offers_of_selectExcept {excluded : List String} (hnamed : q.named = none)
    (h : r.selectExcept q excluded = .ok (some uid)) : r.Offers q.shard q.readOnly uid := by
  obtain ⟨s, hs, h⟩ := bind_eq_ok_iff.1 h
  obtain ⟨hmem, hshard⟩ := selector_eq_ok hs
  rw [hnamed] at h
  exact ⟨s, hmem, hshard, Selector.offers_of_selectExcept (Except.ok.inj h)⟩

/-- What happens to datasources leaves the selectors as they are. -/
theorem selectors_reportIfFatal (r : Repository) (uid : String) (e : SqlError) :
    (r.reportIfFatal uid e).selectors = r.selectors := by
  unfold reportIfFatal report
  split
  · split <;> rfl
  · rfl

theorem selectors_takeIdle {number : Nat} (h : r.takeIdle? uid = some (number, r')) :
    r'.selectors = r.selectors := by
  obtain ⟨taken, -, htaken⟩ := Option.map_eq_some_iff.1 h
  cases htaken
  rfl

end Repository

/-! ### Worlds -/

namespace World

/-- One world comes after another as far as statements are executed in it: the databases answer as
before, and no shard offers more datasources than before. -/
structure Follows (w w' : World) : Prop where
  /-- The databases answer as before. -/
  behaviour : ∀ uid, w'.behaviour uid = w.behaviour uid
  /-- No shard offers more than before. -/
  offers : ∀ shard readOnly uid, w'.repository.Offers shard readOnly uid →
    w.repository.Offers shard readOnly uid

variable {w w' w'' : World} {q : ConnectionRequest}

theorem Follows.refl (w : World) : w.Follows w :=
  ⟨fun _ => rfl, fun _ _ _ h => h⟩

theorem Follows.trans (h : w.Follows w') (h' : w'.Follows w'') : w.Follows w'' :=
  ⟨fun uid => (h'.behaviour uid).trans (h.behaviour uid),
    fun shard readOnly uid hoffers =>
      h.offers shard readOnly uid (h'.offers shard readOnly uid hoffers)⟩

/-- Databases and selectors that stay as they are make a world that follows. -/
theorem follows_of_eq (hbackends : w'.backends = w.backends)
    (hselectors : w'.repository.selectors = w.repository.selectors) : w.Follows w' := by
  refine ⟨fun uid => ?_, fun shard readOnly uid h => ?_⟩
  · rw [behaviour, behaviour, backend, backend, hbackends]
  · rw [Repository.Offers, hselectors] at h
    exact h

theorem follows_count (w : World) (m : Metric) : w.Follows (w.count m) :=
  follows_of_eq rfl rfl

theorem follows_giveBack (w : World) (loan : Loan) : w.Follows (w.giveBack loan) :=
  follows_of_eq rfl rfl

theorem follows_reportIfFatal (w : World) (uid : String) (e : SqlError) :
    w.Follows (w.reportIfFatal uid e) :=
  follows_of_eq rfl (w.repository.selectors_reportIfFatal uid e)

theorem follows_draw (w : World) : w.Follows w.draw.2 :=
  follows_of_eq rfl rfl

theorem follows_call (w : World) (loan : Loan) (kind : CallKind) (sql : String)
    (params : List (List Value)) : w.Follows (w.call loan kind sql params).2 := by
  simp only [call]
  split
  · exact follows_of_eq rfl rfl
  · exact follows_of_eq rfl rfl

/-- A call is answered by the database it was made to. -/
theorem call_eq_ok {loan : Loan} {kind : CallKind} {sql : String} {params : List (List Value)}
    {b : Behaviour} (h : (w.call loan kind sql params).1 = .ok b) : b = w.behaviour loan.uid := by
  simp only [call] at h
  split at h
  · cases h
  · exact (Except.ok.inj h).symm

/-- Leaving out what is listed for one name changes nothing for another. -/
theorem lookup_filter_ne {α : Type} {uid other : String} (h : other ≠ uid)
    (entries : List (String × α)) :
    (entries.filter fun entry => entry.1 ≠ uid).lookup other = entries.lookup other := by
  induction entries with
  | nil => rfl
  | cons entry rest ih =>
    obtain ⟨name, a⟩ := entry
    rw [List.filter_cons]
    by_cases hname : name = uid
    · rw [if_neg (by simp [hname]), ih, List.lookup_cons, beq_false_of_ne (hname ▸ h)]
    · rw [if_pos (by simp [hname]), List.lookup_cons, List.lookup_cons, ih]

/-- A database that is replaced by one that answers alike makes a world that follows. -/
theorem follows_setBackend {uid : String} {b : Backend} (h : b.behaviour = w.behaviour uid) :
    w.Follows (w.setBackend uid b) := by
  refine ⟨fun other => ?_, fun _ _ _ h => h⟩
  rw [behaviour, behaviour, backend, backend, setBackend, List.lookup_cons]
  by_cases hother : other = uid
  · rw [hother, beq_self_eq_true]
    exact h
  · rw [beq_false_of_ne hother]
    show (Option.getD ((w.backends.filter fun entry => entry.1 ≠ uid).lookup other) {}).behaviour =
      _
    rw [lookup_filter_ne hother]

theorem follows_openConnection (w : World) (uid : String) :
    w.Follows (w.openConnection uid).2 := by
  unfold openConnection
  split
  · exact Follows.refl w
  · exact follows_setBackend rfl

/-- The choice of a datasource that the request does not name comes to one that the shard offers. -/
theorem choose_eq_ok (hnamed : q.named = none) {isFirst : Bool} {excluded : List String}
    {given : Option String} (h : w.choose q isFirst excluded = .ok (given, w')) :
    w.Follows w' ∧ ∀ uid, given = some uid → w.repository.Offers q.shard q.readOnly uid := by
  unfold choose at h
  split at h
  · cases hselect : w.draw.2.repository.select q w.draw.1 with
    | error f =>
      simp only [hselect] at h
      cases h
    | ok r =>
      simp only [hselect] at h
      cases h
      refine ⟨⟨fun _ => rfl, fun _ _ _ => Repository.offers_select hnamed hselect⟩, ?_⟩
      rintro uid hgiven
      rw [show r = (some uid, r.2) from Prod.ext hgiven rfl] at hselect
      exact Repository.offers_of_select hnamed hselect
  · cases hselect : w.repository.selectExcept q excluded with
    | error f =>
      rw [hselect] at h
      cases h
    | ok uid =>
      rw [hselect] at h
      cases h
      refine ⟨Follows.refl w, ?_⟩
      rintro uid rfl
      exact Repository.offers_of_selectExcept hnamed hselect

/-- What a search comes to is at a datasource that is offered for its request. -/
def Sought.Within (r : Repository) (q : ConnectionRequest) : Sought → Prop
  | .found loan => r.Offers q.shard q.readOnly loan.uid
  | .mustOpen uid _ => r.Offers q.shard q.readOnly uid
  | .failed _ => True

theorem Sought.Within.of_follows {sought : Sought} (h : w.Follows w')
    (hwithin : sought.Within w'.repository q) : sought.Within w.repository q := by
  cases sought with
  | found loan => exact h.offers _ _ _ hwithin
  | mustOpen uid rest => exact h.offers _ _ _ hwithin
  | failed cause => trivial

/-- A search for a connection comes to a datasource that is offered for its request. -/
theorem seekFrom_within (hnamed : q.named = none) (isFirst : Bool) (excluded : List String)
    (left : Nat) : w.Follows (w.seekFrom q isFirst excluded left).2 ∧
      (w.seekFrom q isFirst excluded left).1.Within w.repository q := by
  induction left generalizing w isFirst with
  | zero => exact ⟨Follows.refl w, trivial⟩
  | succ left ih =>
    rw [seekFrom]
    split
    · exact ⟨Follows.refl w, trivial⟩
    · next w' hchoose =>
      obtain ⟨hfollows, -⟩ := choose_eq_ok hnamed hchoose
      obtain ⟨hrest, hwithin⟩ := ih (w := w') false
      exact ⟨hfollows.trans hrest, hwithin.of_follows hfollows⟩
    · next uid w' hchoose =>
      obtain ⟨hfollows, hoffers⟩ := choose_eq_ok hnamed hchoose
      split
      · next number r hidle =>
        exact ⟨hfollows.trans (follows_of_eq rfl (Repository.selectors_takeIdle hidle)),
          hoffers uid rfl⟩
      · exact ⟨hfollows, hoffers uid rfl⟩

theorem seek_within (hnamed : q.named = none) (s : Search) :
    w.Follows (w.seek q s).2 ∧ (w.seek q s).1.Within w.repository q :=
  seekFrom_within hnamed s.isFirst s.excluded s.left

/-! ### Counts -/

variable {count : String → String → List Value → Nat}

/-- What a write changes at a datasource is what a count says for a shard. -/
def CountsAt (w : World) (count : String → String → List Value → Nat) (shard uid : String) : Prop :=
  ∀ sql params, (w.behaviour uid).changes sql params = count shard sql params

/-- What a write changes is decided by its shard, its text and its values, whichever of the
datasources that the shard offers for writes it goes to. -/
def CountsBy (w : World) (count : String → String → List Value → Nat) : Prop :=
  ∀ shard uid, w.repository.Offers shard false uid → w.CountsAt count shard uid

theorem CountsAt.of_follows {shard uid : String} (h : w.CountsAt count shard uid)
    (hfollows : w.Follows w') : w'.CountsAt count shard uid := by
  intro sql params
  rw [hfollows.behaviour]
  exact h sql params

theorem CountsBy.of_follows (h : w.CountsBy count) (hfollows : w.Follows w') :
    w'.CountsBy count :=
  fun shard uid hoffers =>
    (h shard uid (hfollows.offers shard false uid hoffers)).of_follows hfollows

end World

end ShardRouting
