import Mathlib
import ShardRouting.Proofs.Accepted
import ShardRouting.Proofs.ParsedColumns
import ShardRouting.Proofs.Reads

/-!
# Updates and the place of a row

An update is let through unless it assigns a column of the rule. That keeps every row where it is as
long as the rule reads no column that it does not declare. The check of declarations misses the
placeholders whose names are not plain, and through these an update can move a row.

* `Catalog.routeRow_of_checkAssigned`: an update that is let through moves no row, unless it assigns
  an undeclared column that the rule reads; and each such column is written in a placeholder with a
  name that is not plain, can be assigned, and takes every row off its place where the expression
  has no `coalesce`.
* `Catalog.not_routeRow_of_checkAssigned`: settings that are accepted, and an update that is let
  through and moves a row.
-/

namespace ShardRouting

open Expression

namespace Rule

/-- A column that an accepted rule reads without declaring it stands in a placeholder of its
expression, under a name that is not plain. -/
theorem spells_of_mem_undeclared {registry : Registry} {s : RuleSettings} {r : Rule}
    (h : build registry s = .ok r) {n : String} (hn : n ∈ r.undeclared) :
    ∃ e name, r.kind = .expression e ∧ Spells e.source.toList name ∧ isPlainName name = false ∧
      Identifier.normalize (String.ofList name) = n := by
  obtain ⟨hreads, hdecl⟩ := mem_undeclared_iff.1 hn
  rcases hk : r.kind with ⟨run, args⟩ | e
  · rw [undeclared_of_algorithm hk] at hn
    cases hn
  · have hkind := (build_eq_ok_iff.1 h).2.2
    rw [hk] at hkind
    obtain ⟨source, hparse, hsearch⟩ := parse_of_buildKind hkind
    rw [reads, hk] at hreads
    obtain ⟨name, hspells, -, hname⟩ := spells_of_parse hparse n hreads
    refine ⟨e, name, rfl, (source_of_parse hparse).symm ▸ hspells, ?_, hname⟩
    by_contra hplain
    rw [Bool.not_eq_false] at hplain
    -- a plain name would have been found by the search, and so would be declared
    have hfound := mem_plainPlaceholders_of_spells hspells hplain
    have hall := List.find?_eq_none.1 hsearch (Identifier.normalize (String.ofList name))
      (List.mem_map.2 ⟨name, hfound, by rw [Identifier.normalize, String.toList_ofList]⟩)
    rw [hname] at hall
    simp only [Bool.not_eq_true', Bool.not_eq_false] at hall
    exact hdecl hall

end Rule

namespace Catalog

variable {c : Catalog} {table : String} {t : Table} {r : Router}

/-- Assignments to a routed table are let through if none is to a column of the rule. -/
theorem checkAssigned_eq_ok_iff (hfind : c.find table = .ok t)
    (hrouted : t.placement = .routed r) {columns : List String} :
    c.checkAssigned table columns = .ok () ↔
      ∀ column ∈ columns, ¬ r.rule.declares (Identifier.normalize column) := by
  rw [checkAssigned, hfind]
  simp only [bind, Except.bind, hrouted]
  constructor
  · intro h
    split at h
    · cases h
    · next hnone =>
      intro column hcolumn
      exact List.find?_eq_none.1 hnone column hcolumn
  · intro h
    have hnone : columns.find? r.rule.isColumn = none := List.find?_eq_none.2 h
    rw [hnone]

/-- Without `coalesce`, a row whose value in a column of the expression is taken away has no
place. -/
theorem routeRow_insert_null (hfind : c.find table = .ok t) (hrouted : t.placement = .routed r)
    {e : Expression} (hkind : r.rule.kind = .expression e) (hstrict : e.root.isStrict)
    {n : String} (hn : n ∈ r.rule.undeclared) {row : Row} {route : Route}
    (hroute : c.routeRow table row = .ok route) :
    ∃ reason, c.routeRow table (row.insert n .null) = .error (.noKey r.id reason) := by
  obtain ⟨hreads, hdecl⟩ := Rule.mem_undeclared_iff.1 hn
  rw [Rule.reads, hkind] at hreads
  rw [routeRow_routed hfind hrouted] at hroute
  obtain ⟨targets, htargets, -⟩ := bind_eq_ok_iff.1 hroute
  obtain ⟨positions, hpositions, -⟩ := bind_eq_ok_iff.1 htargets
  have hreq : ∀ col ∈ r.rule.requiredColumns,
      ((row.insert n .null).value col.name).isNull = false := by
    intro col hcol
    have hne : col.name ≠ n := fun he => hdecl (he ▸ Rule.declares_of_mem_requiredColumns hcol)
    rw [Row.value, Row.get?_insert_of_ne hne]
    exact Router.required_of_positions hpositions col hcol
  have hoperand : operand? (row.insert n .null) n = none := by
    rw [operand?, Row.get?_insert_self]
    rfl
  have hkey : ∃ reason,
      r.rule.key r.partition.length (row.insert n .null) = .error reason := by
    cases hv : e.eval (row.insert n .null) with
    | error fault => exact ⟨.expression fault, by simp only [Rule.key, hkind, hv]⟩
    | ok v =>
      cases v with
      | none => exact ⟨.absent, by simp only [Rule.key, hkind, hv]⟩
      | some s =>
        have hbound := (e.root.isSome_iff_of_eval hstrict hv).1 rfl n hreads
        rw [hoperand] at hbound
        cases hbound
  obtain ⟨reason, hreason⟩ := hkey
  refine ⟨reason, ?_⟩
  rw [routeRow_routed hfind hrouted, Router.route, Router.positions_of_required hreq,
    Router.positionsOf, hreason]
  rfl

/-- An update that is let through moves no row, unless it assigns a column that the rule reads
without declaring it. Such a column stands in a placeholder whose name is not plain; it can be
assigned, and where the expression has no `coalesce` an update that takes its value away leaves no
row in its place. -/
theorem routeRow_of_checkAssigned {registry : Registry} {s : Settings}
    (hbuild : build registry s = .ok c) (hfind : c.find table = .ok t)
    (hrouted : t.placement = .routed r) :
    (∀ columns row row', c.checkAssigned table columns = .ok () →
      (∀ n, n ∉ columns.map Identifier.normalize → row'.get? n = row.get? n) →
      (∀ column ∈ columns, Identifier.normalize column ∉ r.rule.undeclared) →
        c.routeRow table row' = c.routeRow table row) ∧
    ∀ n ∈ r.rule.undeclared, ∃ e name, r.rule.kind = .expression e ∧
      Spells e.source.toList name ∧ isPlainName name = false ∧
      Identifier.normalize (String.ofList name) = n ∧
      c.checkAssigned table [String.ofList name] = .ok () ∧
      (e.root.isStrict → ∀ row route, c.routeRow table row = .ok route →
        ∃ reason, c.routeRow table (row.insert n .null) = .error (.noKey r.id reason)) := by
  constructor
  · intro columns row row' hcheck hsame hundeclared
    have hfree := (checkAssigned_eq_ok_iff hfind hrouted).1 hcheck
    have hdeclared : ∀ n, r.rule.declares n → row'.value n = row.value n := by
      intro n hn
      rw [Row.value, Row.value, hsame n]
      intro hassigned
      obtain ⟨column, hcolumn, rfl⟩ := List.mem_map.1 hassigned
      exact hfree column hcolumn hn
    have hreads : ∀ n ∈ r.rule.reads, row'.value n = row.value n := by
      intro n hn
      by_cases hd : r.rule.declares n
      · exact hdeclared n hd
      · rw [Row.value, Row.value, hsame n]
        intro hassigned
        obtain ⟨column, hcolumn, rfl⟩ := List.mem_map.1 hassigned
        exact hundeclared column hcolumn (Rule.mem_undeclared_iff.2 ⟨hn, hd⟩)
    rw [routeRow_routed hfind hrouted, routeRow_routed hfind hrouted, Router.route_congr hreads
      fun col hcol => hdeclared _ (Rule.declares_of_mem_requiredColumns hcol)]
  · intro n hn
    obtain ⟨rs, hrule⟩ := exists_build_of_find hbuild hfind hrouted
    obtain ⟨e, name, hkind, hspells, hplain, hname⟩ := Rule.spells_of_mem_undeclared hrule hn
    refine ⟨e, name, hkind, hspells, hplain, hname, ?_, fun hstrict row route hroute =>
      routeRow_insert_null hfind hrouted hkind hstrict hn hroute⟩
    refine (checkAssigned_eq_ok_iff hfind hrouted).2 fun column hcolumn => ?_
    obtain rfl := List.mem_singleton.1 hcolumn
    rw [hname]
    exact (Rule.mem_undeclared_iff.1 hn).2

/-- Settings whose rule declares one column and reads another. -/
def orderSettings : Settings where
  shards := [{ name := "s0" }, { name := "s1" }]
  routers := [{ id := "by-order", partition := [{ shard := "s0" }, { shard := "s1" }]
                rule := { columns := [{ name := "user_id" }]
                          expression := some "$\x7border-id\x7d % 2" } }]
  tables := [{ name := "orders", router := some "by-order" }]

/-- The router of these settings. -/
def orderRouter : Router where
  id := "by-order"
  partition := [⟨"s0", ""⟩, ⟨"s1", ""⟩]
  rule := ⟨[{ name := "user_id" }], .expression ⟨"$\x7border-id\x7d % 2",
    .binary .rem (.column "order-id") (.literal (.int 2))⟩⟩

/-- The catalog of these settings. -/
def orderCatalog : Catalog where
  tables := [⟨"orders", .routed orderRouter⟩]

/-- A row with values in both columns. -/
def orderRow : Row := [("user_id", .int 7), ("order-id", .int 0)]

/-- An update of a column that the rule does not read leaves the row where it is; one that takes the
value of the undeclared column away leaves it without a place. -/
theorem routeRow_of_checkAssigned_order :
    orderCatalog.routeRow "orders" (orderRow.insert "amount" (.int 3)) =
        orderCatalog.routeRow "orders" orderRow ∧
      ∃ reason, orderCatalog.routeRow "orders" (orderRow.insert "order-id" .null) =
        .error (.noKey "by-order" reason) := by
  have hbuild : build Registry.builtin orderSettings = .ok orderCatalog := by cbv
  have hfind : orderCatalog.find "orders" = .ok ⟨"orders", .routed orderRouter⟩ := by rfl
  obtain ⟨hkept, hmoved⟩ := routeRow_of_checkAssigned hbuild hfind rfl
  constructor
  · refine hkept ["amount"] _ _ (by decide +kernel) (fun n hn => ?_) (by decide +kernel)
    refine Row.get?_insert_of_ne fun h => hn ?_
    subst h
    decide +kernel
  · obtain ⟨e, name, hkind, -, -, -, -, hmoves⟩ := hmoved "order-id" (by decide +kernel)
    cases hkind
    exact hmoves (by decide +kernel) orderRow { targets := [⟨"s0", "orders", ""⟩] }
      (by decide +kernel)

/-- An update that is let through moves a row: the rule reads the column without declaring it. -/
theorem not_routeRow_of_checkAssigned :
    ¬ ∀ (s : Settings) (c : Catalog) (table : String) (t : Table) (r : Router)
      (columns : List String) (row row' : Row), build Registry.builtin s = .ok c →
        c.find table = .ok t → t.placement = .routed r →
          c.checkAssigned table columns = .ok () →
            (∀ n, n ∉ columns.map Identifier.normalize → row'.get? n = row.get? n) →
              c.routeRow table row' = c.routeRow table row := by
  intro h
  have hsame := h orderSettings orderCatalog "orders" ⟨"orders", .routed orderRouter⟩ orderRouter
    ["order-id"] orderRow (orderRow.insert "order-id" (.int 1)) (by cbv) rfl rfl
    (by decide +kernel) fun n hn => Row.get?_insert_of_ne fun h => hn (by subst h; decide +kernel)
  exact absurd hsame (by decide +kernel)

end Catalog

end ShardRouting
