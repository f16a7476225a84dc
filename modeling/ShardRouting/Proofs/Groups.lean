import Mathlib

/-!
# Groups

A list is put into groups by a key: the keys in the order in which they first appear, each with the
entries that have it, in their order. What is put into groups so is all there, once.

* `nodup_eraseDups`: no key has two groups.
* `pairwise_idxOf_eraseDups`: the groups come in the order of their first entries.
* `perm_flatMap_eraseDups`: what is taken key by key is all that was there.
-/

namespace ShardRouting

variable {α κ : Type} [BEq κ]

/-- What holds of a list if it holds of the list without its first entry and all with the same key
holds of all lists. -/
theorem filter_key_induction (key : α → κ) {P : List α → Prop} (nil : P [])
    (cons : ∀ a rest, P (rest.filter fun b => !key b == key a) → P (a :: rest)) :
    ∀ l, P l
  | [] => nil
  | a :: rest => cons a rest (filter_key_induction key nil cons _)
termination_by l => l.length
decreasing_by exact Nat.lt_succ_of_le (List.length_filter_le _ _)

theorem eraseDups_map_cons (key : α → κ) (a : α) (rest : List α) :
    ((a :: rest).map key).eraseDups =
      key a :: ((rest.filter fun b => !key b == key a).map key).eraseDups := by
  rw [List.map_cons, List.eraseDups_cons, List.filter_map]
  rfl

theorem eraseDups_induction {P : List κ → Prop} (nil : P [])
    (cons : ∀ k rest, P (rest.filter fun b => !b == k) → P (k :: rest)) (keys : List κ) : P keys :=
  filter_key_induction id nil cons keys

variable [LawfulBEq κ]

/-- Erasing repetitions leaves none. -/
theorem nodup_eraseDups (keys : List κ) : keys.eraseDups.Nodup := by
  induction keys using eraseDups_induction with
  | nil => exact List.nodup_nil
  | cons k rest ih =>
    rw [List.eraseDups_cons, List.nodup_cons]
    refine ⟨fun hk => ?_, ih⟩
    rw [List.mem_eraseDups, List.mem_filter] at hk
    simp at hk

/-- Leaving out others does not change which of two comes first. -/
theorem idxOf_lt_of_filter {p : κ → Bool} {a b : κ} (ha : p a) (hb : p b) {keys : List κ}
    (h : (keys.filter p).idxOf a < (keys.filter p).idxOf b) : keys.idxOf a < keys.idxOf b := by
  induction keys with
  | nil => exact h
  | cons k rest ih =>
    by_cases hk : p k
    · rw [List.filter_cons_of_pos hk] at h
      simp only [List.idxOf_cons] at h ⊢
      cases hka : k == a <;> cases hkb : k == b <;> simp_all
    · rw [List.filter_cons_of_neg hk] at h
      have hka : (k == a) = false := beq_false_of_ne fun hka => hk (hka ▸ ha)
      have hkb : (k == b) = false := beq_false_of_ne fun hkb => hk (hkb ▸ hb)
      simp only [List.idxOf_cons, hka, hkb, cond_false]
      exact Nat.succ_lt_succ (ih h)

/-- Keys stay in the order in which they first appear when their repetitions are erased. -/
theorem pairwise_idxOf_eraseDups (keys : List κ) :
    keys.eraseDups.Pairwise fun a b => keys.idxOf a < keys.idxOf b := by
  induction keys using eraseDups_induction with
  | nil => exact List.Pairwise.nil
  | cons k rest ih =>
    rw [List.eraseDups_cons, List.pairwise_cons]
    have hother : ∀ a ∈ (rest.filter fun b => !b == k).eraseDups, (!a == k) = true := by
      intro a ha
      exact (List.mem_filter.1 (List.mem_eraseDups.1 ha)).2
    have hcons : ∀ a, (!a == k) = true → (k :: rest).idxOf a = rest.idxOf a + 1 := by
      intro a ha
      rw [List.idxOf_cons, beq_false_of_ne (by rintro rfl; simp at ha), cond_false]
    constructor
    · intro a ha
      rw [hcons a (hother a ha), List.idxOf_cons_self]
      exact Nat.succ_pos _
    · refine ih.imp_of_mem fun {a b} ha hb hab => ?_
      rw [hcons a (hother a ha), hcons b (hother b hb)]
      exact Nat.succ_lt_succ
        (idxOf_lt_of_filter (p := fun b => !b == k) (hother a ha) (hother b hb) hab)

/-- What is taken key by key is all that was there. -/
theorem perm_flatMap_eraseDups (key : α → κ) (l : List α) :
    ((l.map key).eraseDups.flatMap fun k => l.filter fun a => key a == k).Perm l := by
  induction l using filter_key_induction key with
  | nil => exact List.Perm.refl []
  | cons a rest ih =>
    rw [eraseDups_map_cons, List.flatMap_cons]
    -- the other keys take nothing from what has the first key
    have hothers : ∀ k ∈ ((rest.filter fun b => !key b == key a).map key).eraseDups,
        ((a :: rest).filter fun b => key b == k) =
          (rest.filter fun b => !key b == key a).filter fun b => key b == k := by
      intro k hk
      obtain ⟨b, hb, rfl⟩ := List.mem_map.1 (List.mem_eraseDups.1 hk)
      have hne : (key b == key a) = false := by
        simpa using (List.mem_filter.1 hb).2
      rw [List.filter_cons_of_neg (by rw [BEq.comm, hne]; exact nofun), List.filter_filter]
      refine List.filter_congr fun x _ => ?_
      cases hx : key x == key b with
      | false => rfl
      | true => rw [eq_of_beq hx, hne]; rfl
    have hown : ((a :: rest).filter fun b => key b == key a) =
        a :: rest.filter fun b => key b == key a := List.filter_cons_of_pos (beq_self_eq_true _)
    rw [List.flatMap_congr hothers, hown]
    exact ((ih.append_left _).trans (List.filter_append_perm _ rest)).cons a

end ShardRouting
