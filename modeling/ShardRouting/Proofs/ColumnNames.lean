import Mathlib
import ShardRouting.Proofs.ConditionOrder
import ShardRouting.Proofs.NormalNames
import ShardRouting.Proofs.ScanRoute

/-!
# Names of rule columns

The name that a condition gives to a column is read four times. Its normal form says where the
candidate values are kept; whether it belongs to the rule at all is asked of the normal form of
that; whether a column that needs a value has one is asked of what was kept, as it is; and the rows
that are routed bind the normal form of what was kept. All four mean one column if the normal form
of the name is its own normal form. Otherwise the candidates of one column lie under several names,
and of these the last one alone counts.

* `Catalog.meant`: the column of a rule that a condition is for.
* `Catalog.NamesAgree`: the four readings mean the same column, and the conditions for a column are
  all met by its candidates.
* `Catalog.namesAgree_iff`: that is so exactly if the names are settled, and these are exactly the
  names whose normal form is its own.
* `Catalog.not_namesAgree`: a name with a blank inside its quotes.
-/

namespace ShardRouting.Catalog

open Identifier

variable {rule : Rule} {conditions : List Condition} {cond : Condition} {n : String}

/-- The column that a condition is for, as a rule sees it. -/
def meant (cond : Condition) : String :=
  normalize (normalize cond.column)

/-- The names that conditions give to columns of a rule are settled, wherever the conditions list
values. -/
def NamesSettled (rule : Rule) (conditions : List Condition) : Prop :=
  ∀ cond ∈ conditions, (listed? rule cond).isSome → IsSettled cond.column

/-- The candidates under conditions belong to columns of the rule, each to one, whoever reads their
names. -/
structure NamesAgree (rule : Rule) (conditions : List Condition) : Prop where
  /-- The rows that are routed bind the names under which candidates are kept. -/
  named : Router.named (pinAll rule conditions) = pinAll rule conditions
  /-- These are names of columns that the rule declares. -/
  declared : ∀ n ∈ (pinAll rule conditions).map Prod.fst, rule.declares n
  /-- The columns with candidates are those that a condition with values is for. -/
  mem_iff : ∀ n, n ∈ (pinAll rule conditions).map Prod.fst ↔
    ∃ cond ∈ conditions, (listed? rule cond).isSome ∧ meant cond = n
  /-- No column has candidates twice. -/
  nodup : ((pinAll rule conditions).map Prod.fst).Nodup
  /-- The candidates of a column are the values of one condition for it, as far as every condition
  for it lists a value of the same key. -/
  meets : ∀ n vs, (n, vs) ∈ pinAll rule conditions → ∃ first ∈ conditions, ∃ own,
    listed? rule first = some (n, own) ∧ ∀ v, v ∈ vs ↔ v ∈ own ∧ ∀ cond ∈ conditions,
      meant cond = n → ∀ e, listed? rule cond = some e → ∃ x ∈ e.2, x.sameKey v

/-- What a condition lists is kept under the normal form of its name. -/
theorem fst_of_listed? {e : String × List Value} (h : listed? rule cond = some e) :
    e.1 = normalize cond.column := by
  obtain ⟨-, values, -, rfl⟩ := listed?_eq_some_iff.1 h
  rfl

/-- A condition that lists values for a column of a rule is for a column that the rule declares. -/
theorem declares_meant {e : String × List Value} (h : listed? rule cond = some e) :
    rule.declares (meant cond) :=
  (listed?_eq_some_iff.1 h).1

/-- The names under which candidates are kept are those that conditions list values under. -/
theorem mem_map_fst_pinAll_iff_listed? : n ∈ (pinAll rule conditions).map Prod.fst ↔
    ∃ cond ∈ conditions, (listed? rule cond).isSome ∧ normalize cond.column = n := by
  rw [pinAll_eq, mem_map_fst_pinEntries]
  simp only [List.mem_map, List.mem_filterMap, Option.isSome_iff_exists]
  constructor
  · rintro ⟨e, ⟨cond, hcond, he⟩, rfl⟩
    exact ⟨cond, hcond, ⟨e, he⟩, (fst_of_listed? he).symm⟩
  · rintro ⟨cond, hcond, ⟨e, he⟩, rfl⟩
    exact ⟨e, ⟨cond, hcond, he⟩, fst_of_listed? he⟩

/-- The normal form of a settled name is the column that the condition is for. -/
theorem meant_eq (h : IsSettled cond.column) : meant cond = normalize cond.column :=
  (normalize_normalize_iff cond.column).2 h

/-- Rows bind the names under which candidates are kept exactly if the names are settled. -/
theorem named_eq_iff_namesSettled :
    Router.named (pinAll rule conditions) = pinAll rule conditions ↔
      NamesSettled rule conditions := by
  rw [Router.named_eq_iff]
  constructor
  · intro h cond hcond hlisted
    exact (normalize_normalize_iff cond.column).1
      (h _ (mem_map_fst_pinAll_iff_listed?.2 ⟨cond, hcond, hlisted, rfl⟩))
  · intro h n hn
    obtain ⟨cond, hcond, hlisted, rfl⟩ := mem_map_fst_pinAll_iff_listed?.1 hn
    exact meant_eq (h cond hcond hlisted)

/-- Under settled names the candidates of a column are what all conditions for it list. -/
theorem exists_first_of_namesSettled (hsettled : NamesSettled rule conditions)
    {vs : List Value} (h : (n, vs) ∈ pinAll rule conditions) :
    ∃ first ∈ conditions, ∃ own, listed? rule first = some (n, own) ∧ ∀ v, v ∈ vs ↔
      v ∈ own ∧ ∀ cond ∈ conditions, meant cond = n → ∀ e, listed? rule cond = some e →
        ∃ x ∈ e.2, x.sameKey v := by
  rw [pinAll_eq] at h
  obtain ⟨⟨m, own⟩, hown, rfl, hvs⟩ := exists_first_of_mem_pinEntries h
  obtain ⟨first, hfirst, hlisted⟩ := List.mem_filterMap.1 hown
  refine ⟨first, hfirst, own, hlisted, fun v => ?_⟩
  rw [hvs]
  refine and_congr_right fun _ => ⟨fun hall cond hcond hmeant e he => ?_, fun hall e he hname => ?_⟩
  · refine hall e (List.mem_filterMap.2 ⟨cond, hcond, he⟩) ?_
    rw [fst_of_listed? he, ← meant_eq (hsettled cond hcond (Option.isSome_of_eq_some he)), hmeant]
  · obtain ⟨cond, hcond, he⟩ := List.mem_filterMap.1 he
    refine hall cond hcond ?_ e he
    rw [meant_eq (hsettled cond hcond (Option.isSome_of_eq_some he)), ← fst_of_listed? he, hname]

/-- All that is asked of the name of a column is answered for one column, whatever conditions there
are, exactly if the names in the conditions are settled; and these are the names whose normal form
is its own normal form. -/
theorem namesAgree_iff (rule : Rule) (conditions : List Condition) :
    (NamesAgree rule conditions ↔ NamesSettled rule conditions) ∧
      ∀ name, normalize (normalize name) = normalize name ↔ IsSettled name := by
  refine ⟨⟨fun h => ?_, fun h => ?_⟩, normalize_normalize_iff⟩
  · exact named_eq_iff_namesSettled.1 h.named
  · have hmeant : ∀ cond ∈ conditions, (listed? rule cond).isSome →
        meant cond = normalize cond.column :=
      fun cond hcond hlisted => meant_eq (h cond hcond hlisted)
    constructor
    · exact named_eq_iff_namesSettled.2 h
    · intro n hn
      obtain ⟨cond, hcond, hlisted, rfl⟩ := mem_map_fst_pinAll_iff_listed?.1 hn
      obtain ⟨e, he⟩ := Option.isSome_iff_exists.1 hlisted
      rw [← hmeant cond hcond hlisted]
      exact declares_meant he
    · intro n
      rw [mem_map_fst_pinAll_iff_listed?]
      refine exists_congr fun cond => and_congr_right fun hcond => and_congr_right fun hlisted => ?_
      rw [hmeant cond hcond hlisted]
    · rw [pinAll_eq]
      exact nodup_map_fst_pinEntries _
    · exact fun n vs hvs => exists_first_of_namesSettled h hvs

/-- A name with a blank inside its quotes changes under a second comparison, and an equality for a
column under such a name takes the place of one for another value, where none could be met. -/
theorem not_namesAgree :
    (¬ ∀ name, normalize (normalize name) = normalize name) ∧
      ¬ ∀ (s : Settings) (c : Catalog) (table a b : String) (t : Table) (r : Router)
        (v w : Value) (route : Route), build Registry.builtin s = .ok c → c.find table = .ok t →
          t.placement = .routed r → r.rule.isColumn a →
            normalize (normalize a) = normalize (normalize b) → v.sameKey w = false →
              c.routeConditions table [⟨a, .equals v⟩, ⟨b, .equals w⟩] = .ok route →
                route.targets = [] := by
  constructor
  · intro h
    exact absurd (h "[ user_id]") (by decide +kernel)
  · intro h
    have htargets := h bytesSettings bytesCatalog "orders" "user_id" "[ user_id]"
      ⟨"orders", .routed bytesRouter⟩ bytesRouter (.int 0) (.int 1)
      { targets := [⟨"s0", "orders", ""⟩] } (by cbv) rfl rfl (by decide +kernel) (by decide +kernel)
      (by decide +kernel) (by decide +kernel)
    cases htargets

end ShardRouting.Catalog
