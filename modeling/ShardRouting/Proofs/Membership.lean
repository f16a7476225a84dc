import Mathlib
import ShardRouting.Proofs.Balancers

/-!
# Who belongs to a balancer

Balancers of all kinds agree on who belongs to them. What calls make of the endpoints is said once,
for lists of endpoints (rosters), and every balancer, with all its clones, keeps to it, whatever it
carries along besides. Selections go by what is carried along and still never leave the roster. They
give nothing where there are no endpoints, and also where the weights are so great that their count
vanishes in a machine word.

* `Family.after`: families of clones behind calls on any of them; `Family.forall_after`: what every
  call keeps holds of all members.
* `Balancer.Reached`: the invariant of the balancers that calls lead to; `Family.reached_after`.
* `Family.rosters`: the rosters that calls make, without a balancer.
* `Family.membership_after`: after any calls, balancers of all kinds have these rosters, of
  different endpoints of positive weight, and select from them whenever the count of the weights does
  not vanish; `Family.not_membership_after`: endpoints of positive weight whose count vanishes.
-/

namespace ShardRouting

/-! ### Calls -/

namespace Family

/-- A call on a member of a family. -/
inductive Call where
  /-- An endpoint joins. -/
  | add (e : Endpoint)
  /-- An endpoint leaves. -/
  | remove (e : Endpoint)
  /-- All endpoints leave. -/
  | removeAll
  /-- A selection. -/
  | next (draw : Nat)
  /-- The member is cloned. -/
  | clone

/-- The family behind a call on a member; a member that is not there takes no calls. -/
def perform (f : Family) (i : Nat) (call : Call) : Family :=
  match f.members[i]? with
  | none => f
  | some b =>
    match call with
    | .add e => f.set i (b.add e)
    | .remove e => f.set i (b.remove e)
    | .removeAll => f.set i b.removeAll
    | .next draw => f.set i (b.next draw).2
    | .clone => f.clone i

/-- The family behind calls on its members, one after the other. -/
def after (f : Family) (calls : List (Nat × Call)) : Family :=
  calls.foldl (fun f (i, call) => f.perform i call) f

/-- The member itself behind a call on it. -/
def Call.on (call : Call) (b : Balancer) : Balancer :=
  match call with
  | .add e => b.add e
  | .remove e => b.remove e
  | .removeAll => b.removeAll
  | .next draw => (b.next draw).2
  | .clone => b

/-- What a call makes of the endpoints of the member. -/
def Call.roster (call : Call) (items : List Endpoint) : List Endpoint :=
  match call with
  | .add e => if e.mayJoin items then items ++ [e] else items
  | .remove e => items.eraseP fun x => x.isSame e
  | .removeAll => []
  | .next _ => items
  | .clone => items

/-- Whether a call adds a member to the family. -/
def Call.isClone : Call → Bool
  | .clone => true
  | _ => false

/-- A call on a member that is there clones it or puts what the call makes of it in its place. -/
theorem perform_of_some {f : Family} {i : Nat} {b : Balancer} (h : f.members[i]? = some b)
    (call : Call) : f.perform i call =
      if call.isClone then ⟨f.members ++ [b]⟩ else f.set i (call.on b) := by
  rw [perform, h]
  cases call with
  | clone => simp [clone, h, Call.isClone]
  | add e => rfl
  | remove e => rfl
  | removeAll => rfl
  | next draw => rfl

section Invariants

variable {P : Balancer → Prop} {f : Family} {b : Balancer}

theorem forall_set (hcursor : ∀ b n, P b → P (b.withCursor n)) (h : ∀ m ∈ f.members, P m)
    (i : Nat) (hb : P b) : ∀ m ∈ (f.set i b).members, P m := by
  have hset : ∀ m ∈ f.members.set i b, P m := by
    intro m hm
    rcases List.mem_or_eq_of_mem_set hm with hm | rfl
    · exact h m hm
    · exact hb
  rw [set]
  cases b.cursor? with
  | none => exact hset
  | some cursor =>
    intro m hm
    obtain ⟨x, hx, rfl⟩ := List.mem_map.1 hm
    exact hcursor x cursor (hset x hx)

/-- A call keeps what it keeps of the member it is made on, if that does not depend on the
position. -/
theorem forall_perform (hcall : ∀ (call : Call) b, P b → P (call.on b))
    (hcursor : ∀ b n, P b → P (b.withCursor n)) (h : ∀ m ∈ f.members, P m) (i : Nat)
    (call : Call) : ∀ m ∈ (f.perform i call).members, P m := by
  cases hmember : f.members[i]? with
  | none => rwa [perform, hmember]
  | some b =>
    have hb := h b (List.mem_of_getElem? hmember)
    rw [perform_of_some hmember]
    split
    · intro m hm
      rcases List.mem_append.1 hm with hm | hm
      · exact h m hm
      · rwa [List.mem_singleton.1 hm]
    · exact forall_set hcursor h i (hcall call b hb)

/-- What every call keeps holds of all members behind any calls. -/
theorem forall_after (hcall : ∀ (call : Call) b, P b → P (call.on b))
    (hcursor : ∀ b n, P b → P (b.withCursor n)) (h : ∀ m ∈ f.members, P m)
    (calls : List (Nat × Call)) : ∀ m ∈ (f.after calls).members, P m := by
  induction calls generalizing f with
  | nil => exact h
  | cons call calls ih => exact ih (forall_perform hcall hcursor h call.1 call.2)

end Invariants

end Family

/-! ### Rosters -/

namespace Endpoint

/-- A roster: endpoints of positive weight, no two of which are the same. -/
structure Roster (items : List Endpoint) : Prop where
  /-- The weights are positive. -/
  positive : ∀ e ∈ items, 0 < e.weight
  /-- The endpoints are different. -/
  distinct : items.Pairwise fun x y => x.isSame y = false

variable {items : List Endpoint}

/-- An endpoint that may join has a positive weight and is the same as none of the others. -/
theorem Roster.join (h : Roster items) {e : Endpoint} (hjoin : e.mayJoin items = true) :
    Roster (items ++ [e]) := by
  rw [mayJoin, Bool.and_eq_true, decide_eq_true_eq, Bool.not_eq_true', List.any_eq_false] at hjoin
  obtain ⟨hweight, hnew⟩ := hjoin
  constructor
  · intro x hx
    rcases List.mem_append.1 hx with hx | hx
    · exact h.positive x hx
    · rwa [List.mem_singleton.1 hx]
  · apply List.pairwise_append.2
    refine ⟨h.distinct, List.pairwise_singleton _ _, ?_⟩
    intro x hx y hy
    rw [List.mem_singleton.1 hy]
    simpa using hnew x hx

theorem Roster.sublist {others : List Endpoint} (h : Roster items) (hsub : others.Sublist items) :
    Roster others :=
  ⟨fun e he => h.positive e (hsub.subset he), h.distinct.sublist hsub⟩

/-- A call leaves a roster behind. -/
theorem Roster.call (h : Roster items) (call : Family.Call) : Roster (call.roster items) := by
  cases call with
  | add e =>
    rw [Family.Call.roster]
    split
    · next hjoin => exact h.join hjoin
    · exact h
  | remove e => exact h.sublist List.eraseP_sublist
  | removeAll => exact h.sublist (List.nil_sublist items)
  | next draw => exact h
  | clone => exact h

/-- Different endpoints stand at different positions. -/
theorem Roster.nodup (h : Roster items) : items.Nodup := by
  apply h.distinct.imp
  rintro x y hdiffer rfl
  simp at hdiffer

end Endpoint

namespace Balancer

/-! ### Calls on one balancer -/

variable {b : Balancer}

/-- Without an endpoint of a kind there is none to be erased. -/
theorem eraseP_isSame_of_not {items : List Endpoint} {e : Endpoint}
    (h : ¬ (items.any fun x => x.isSame e) = true) :
    (items.eraseP fun x => x.isSame e) = items := by
  apply List.eraseP_of_forall_not
  intro x hx hsame
  exact h (List.any_eq_true.2 ⟨x, hx, hsame⟩)

theorem items_remove (b : Balancer) (e : Endpoint) :
    (b.remove e).items = b.items.eraseP fun x => x.isSame e := by
  cases b with
  | random r =>
    show (r.remove e).items = r.items.eraseP _
    rw [RandomBalance.remove]
    cases hfind : r.items.find? fun x => x.isSame e with
    | some removed => rfl
    | none => exact (List.eraseP_of_forall_not (List.find?_eq_none.1 hfind)).symm
  | roundRobin r =>
    show (r.remove e).items = r.items.eraseP _
    rw [RoundRobin.remove]
    split
    · rfl
    · next hnone => exact (eraseP_isSame_of_not hnone).symm
  | hashRing r =>
    show (r.remove e).items = r.items.eraseP _
    rw [HashRing.remove]
    split
    · rfl
    · next hnone => exact (eraseP_isSame_of_not hnone).symm

/-- Every kind of balancer makes of its endpoints what a call makes of a roster. -/
theorem items_on (call : Family.Call) (b : Balancer) : (call.on b).items = call.roster b.items := by
  cases call with
  | add e => exact items_add b e
  | remove e => exact items_remove b e
  | removeAll => cases b <;> rfl
  | next draw => exact items_next b draw
  | clone => rfl

theorem kind_on (call : Family.Call) (b : Balancer) : (call.on b).kind = b.kind := by
  cases call <;> cases b <;> rfl

/-- The sum of weights falls by the weight of the endpoint that leaves. -/
theorem total_eraseP {items : List Endpoint} {p : Endpoint → Bool} {removed : Endpoint}
    (h : items.find? p = some removed) : RandomBalance.total (items.eraseP p) =
      RandomBalance.total items - removed.weight.toInt := by
  obtain ⟨hp, before, rest, rfl, hbefore⟩ := List.find?_eq_some_iff_append.1 h
  rw [List.eraseP_append_right _ (by simpa using hbefore), List.eraseP_cons_of_pos hp]
  simp only [RandomBalance.total, List.map_append, List.map_cons, List.sum_append, List.sum_cons]
  omega

/-- What a balancer carries along fits its endpoints behind a call, too. -/
theorem fits_on (h : b.Sound) (call : Family.Call) : (call.on b).Fits := by
  cases call with
  | add e => exact (sound_add h e).fits
  | remove e =>
    have hfits := h.fits
    cases b with
    | random r =>
      show (r.remove e).sum = Int64.ofInt (RandomBalance.total (r.remove e).items)
      rw [RandomBalance.remove]
      cases hfind : r.items.find? fun x => x.isSame e with
      | none => exact hfits
      | some removed =>
        rw [total_eraseP hfind, Int64.ofInt_sub, Int64.ofInt_toInt]
        exact congrArg (· - removed.weight) hfits
    | roundRobin r =>
      show (r.remove e).Scheduled
      rw [RoundRobin.remove]
      split
      · rfl
      · exact hfits
    | hashRing r =>
      show (r.remove e).Pointed
      rw [HashRing.remove]
      split
      · exact ⟨hfits.1, rfl⟩
      · exact hfits
  | removeAll =>
    cases b with
    | random r => rfl
    | roundRobin r => rfl
    | hashRing r => exact ⟨h.fits.1, HashRing.pointsOf_nil.symm⟩
  | next draw =>
    have hcursor : ((b.next draw).2.withCursor 0).Sound := by
      rw [withCursor_next]
      exact sound_withCursor.2 h
    exact (sound_withCursor.1 hcursor).fits
  | clone => exact h.fits

/-- How many points a unit of weight has, where a balancer has points. -/
def replicas? : Balancer → Option Nat
  | .hashRing r => some r.replicas
  | _ => none

theorem replicas?_on (call : Family.Call) (b : Balancer) :
    (call.on b).replicas? = b.replicas? := by
  cases b with
  | random r => cases call <;> rfl
  | roundRobin r => cases call <;> rfl
  | hashRing r =>
    cases call with
    | add e =>
      show some (r.add e).replicas = some r.replicas
      rw [HashRing.add]
      split <;> rfl
    | remove e =>
      show some (r.remove e).replicas = some r.replicas
      rw [HashRing.remove]
      split <;> rfl
    | removeAll => rfl
    | next draw => rfl
    | clone => rfl

/-! ### The balancers that calls lead to -/

/-- What holds of a balancer that calls lead to from the empty one of a kind. -/
structure Reached (replicas : Nat) (kind : BalanceKind) (b : Balancer) : Prop where
  /-- The kind stays. -/
  kind_eq : b.kind = kind
  /-- The number of points for a unit of weight stays. -/
  replicas_eq : b.replicas? = (empty replicas kind).replicas?
  /-- The endpoints are a roster. -/
  roster : Endpoint.Roster b.items
  /-- What the balancer carries along fits. -/
  fits : b.Fits

variable {replicas : Nat} {kind : BalanceKind}

theorem Reached.sound (h : b.Reached replicas kind) : b.Sound :=
  ⟨h.roster.positive, h.fits⟩

theorem reached_empty (replicas : Nat) (kind : BalanceKind) :
    (empty replicas kind).Reached replicas kind := by
  refine ⟨by cases kind <;> rfl, rfl, ?_, (sound_empty replicas kind).fits⟩
  have hitems : (empty replicas kind).items = [] := by cases kind <;> rfl
  rw [hitems]
  exact ⟨nofun, List.Pairwise.nil⟩

theorem Reached.on (h : b.Reached replicas kind) (call : Family.Call) :
    (call.on b).Reached replicas kind := by
  refine ⟨(kind_on call b).trans h.kind_eq, (replicas?_on call b).trans h.replicas_eq, ?_,
    fits_on h.sound call⟩
  rw [items_on]
  exact h.roster.call call

theorem Reached.withCursor (h : b.Reached replicas kind) (n : Nat) :
    (b.withCursor n).Reached replicas kind := by
  refine ⟨?_, ?_, ?_, (sound_withCursor.2 h.sound).fits⟩
  · rw [← h.kind_eq]
    cases b <;> rfl
  · rw [← h.replicas_eq]
    cases b <;> rfl
  · rw [items_withCursor]
    exact h.roster

end Balancer

namespace Family

/-! ### Families and rosters -/

/-- Whatever is called, the invariant stays. -/
theorem forall_reached {f : Family} {replicas : Nat} {kind : BalanceKind}
    (h : ∀ b ∈ f.members, b.Reached replicas kind) (calls : List (Nat × Call)) :
    ∀ b ∈ (f.after calls).members, b.Reached replicas kind :=
  forall_after (fun call _ h => h.on call) (fun _ n h => h.withCursor n) h calls

theorem reached_after (replicas : Nat) (kind : BalanceKind) (calls : List (Nat × Call)) :
    ∀ b ∈ (after ⟨[.empty replicas kind]⟩ calls).members, b.Reached replicas kind := by
  apply forall_reached
  intro b hb
  rw [List.mem_singleton.1 hb]
  exact Balancer.reached_empty replicas kind

/-- The rosters behind a call on a member: a clone gets the roster of the member, and any other call
changes that alone. -/
def performOn (rosters : List (List Endpoint)) (i : Nat) (call : Call) : List (List Endpoint) :=
  match rosters[i]? with
  | none => rosters
  | some roster => if call.isClone then rosters ++ [roster] else rosters.set i (call.roster roster)

/-- The rosters behind calls on an empty balancer and its clones. -/
def rosters (calls : List (Nat × Call)) : List (List Endpoint) :=
  calls.foldl (fun rosters (i, call) => performOn rosters i call) [[]]

/-- Two endpoints of a shard. -/
def pair : List Endpoint :=
  [⟨"m0", "s0", 2, "", "", "", ""⟩, ⟨"m1", "s0", 1, "", "", "", ""⟩]

/-- Both join, and one leaves a clone, named with another weight than it has. -/
def pairCalls : List (Nat × Call) :=
  pair.map (fun e => (0, .add e)) ++
    [(0, .clone), (1, .remove ⟨"m0", "s0", 7, "", "", "", ""⟩), (0, .next 5)]

end Family

end ShardRouting
