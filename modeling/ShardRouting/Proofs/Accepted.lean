import ShardRouting.Proofs.Outcome
import ShardRouting.Table

/-!
# Accepted settings

What is known of the routers and rules of a catalog because its settings were accepted. Every
router of a table was built from settings of its own, and so was its rule.

* `Router.build_eq_ok_iff`, `Rule.build_eq_ok_iff`: what makes settings acceptable, and what is
  built from them.
* `Rule.find?_of_buildKind`, `Rule.parse_of_buildKind`: where the algorithm or the expression of a
  rule comes from.
* `Catalog.exists_build_of_find`: the rule of a routed table was built from settings;
  `Catalog.exists_find?_of_find`: its algorithm is a registered one.
-/

namespace ShardRouting

namespace Rule

/-- A rule is accepted if it has columns and one way to find its key. -/
theorem build_eq_ok_iff {registry : Registry} {s : RuleSettings} {r : Rule} :
    build registry s = .ok r ↔
      s.columns ≠ [] ∧ r.columns = s.columns.map (fun c =>
        { c with name := Identifier.normalize c.name }) ∧
      buildKind registry r.columns s = .ok r.kind := by
  unfold build
  simp only [List.map_eq_nil_iff]
  split
  · next h => simp [h]
  · next h =>
    split
    · next kind hkind =>
      constructor
      · intro hr
        cases hr
        exact ⟨h, rfl, hkind⟩
      · rintro ⟨-, hc, hk⟩
        rw [hc, hkind] at hk
        cases r
        cases hc
        cases hk
        rfl
    · next fault hfault =>
      refine ⟨nofun, ?_⟩
      rintro ⟨-, hc, hk⟩
      rw [hc, hfault] at hk
      cases hk

/-- An accepted algorithm is a registered one. -/
theorem find?_of_buildKind {registry : Registry} {columns : List RuleColumn} {s : RuleSettings}
    {run : KeyAlgorithm} {args : List Int64}
    (h : buildKind registry columns s = .ok (.algorithm run args)) :
    ∃ name, registry.find? name = some run := by
  unfold buildKind at h
  split at h
  · next name _ _ =>
    split at h
    · next run' hrun => cases h; exact ⟨name, hrun⟩
    · cases h
  · split at h
    · cases h
    · split at h <;> cases h
  · cases h

/-- An accepted expression is the one that the settings give, and the search for undeclared columns
found none in its text. -/
theorem parse_of_buildKind {registry : Registry} {columns : List RuleColumn} {s : RuleSettings}
    {e : Expression} (h : buildKind registry columns s = .ok (.expression e)) :
    ∃ source, Expression.parse source = .ok e ∧ undeclared? columns source = none := by
  unfold buildKind at h
  split at h
  · split at h <;> cases h
  · next source _ _ =>
    split at h
    · cases h
    · next hnone =>
      split at h
      · next e' he => cases h; exact ⟨source, he, hnone⟩
      · cases h
  · cases h

/-- A parsed expression keeps its text. -/
theorem source_of_parse {source : String} {e : Expression} (h : Expression.parse source = .ok e) :
    e.source = source := by
  unfold Expression.parse at h
  split at h
  · cases h
  · cases h
  · split at h
    · cases h
    · cases h; rfl

end Rule

namespace Router

/-- A router is accepted if its parts are distinct and at least one, and its rule is. -/
theorem build_eq_ok_iff {registry : Registry} {s : RouterSettings} {r : Router} :
    build registry s = .ok r ↔
      r.id = s.id ∧ r.partition = s.partition.flatMap partsOf ∧ r.partition.Nodup ∧
        r.partition ≠ [] ∧ Rule.build registry s.rule = .ok r.rule := by
  unfold build
  simp only
  split
  · next part hpart =>
    refine ⟨nofun, ?_⟩
    rintro ⟨-, hp, hn, -⟩
    rw [hp, ← firstRepeated?_eq_none_iff, hpart] at hn
    cases hn
  · next hnone =>
    split
    · next hempty =>
      refine ⟨nofun, ?_⟩
      rintro ⟨-, hp, -, hne, -⟩
      exact absurd (hp.trans hempty) hne
    · next hne =>
      split
      · next rule hrule =>
        constructor
        · intro h
          cases h
          exact ⟨rfl, rfl, firstRepeated?_eq_none_iff.1 hnone, hne, hrule⟩
        · rintro ⟨hid, hp, -, -, hr⟩
          rw [hrule] at hr
          cases r
          cases hid
          cases hp
          cases hr
          rfl
      · next fault hfault =>
        refine ⟨nofun, ?_⟩
        rintro ⟨-, -, -, -, hr⟩
        rw [hfault] at hr
        cases hr

end Router

namespace Catalog

variable {registry : Registry} {s : Settings}

/-- Every router is built from settings of its own. -/
theorem exists_settings_of_mem_buildRouters {built routers : List Router}
    {rest : List RouterSettings} (h : buildRouters registry s built rest = .ok routers) {r : Router}
    (hr : r ∈ routers) : r ∈ built ∨ ∃ rs ∈ rest, Router.build registry rs = .ok r := by
  induction rest generalizing built with
  | nil => cases h; exact Or.inl hr
  | cons next rest ih =>
    obtain ⟨router, hrouter, h⟩ := bind_eq_ok_iff.1 h
    obtain ⟨-, -, h⟩ := bind_eq_ok_iff.1 h
    split at h
    · cases h
    · rcases ih h with hbuilt | ⟨rs, hrs, hbuild⟩
      · rcases List.mem_append.1 hbuilt with hbuilt | hlast
        · exact Or.inl hbuilt
        · obtain rfl := List.mem_singleton.1 hlast
          exact Or.inr ⟨next, List.mem_cons_self, hrouter⟩
      · exact Or.inr ⟨rs, List.mem_cons_of_mem _ hrs, hbuild⟩

/-- Every table is placed according to settings of its own. -/
theorem exists_settings_of_mem_buildTables {routers : List Router} {built tables : List Table}
    {rest : List TableSettings} (h : buildTables s routers built rest = .ok tables) {t : Table}
    (ht : t ∈ tables) :
    t ∈ built ∨ ∃ ts ∈ rest, t.name = Identifier.normalize ts.name ∧
      buildPlacement s routers t.name ts = .ok t.placement := by
  induction rest generalizing built with
  | nil => cases h; exact Or.inl ht
  | cons next rest ih =>
    obtain ⟨placement, hplacement, h⟩ := bind_eq_ok_iff.1 h
    split at h
    · cases h
    · rcases ih h with hbuilt | ⟨ts, hts, hname, hbuild⟩
      · rcases List.mem_append.1 hbuilt with hbuilt | hlast
        · exact Or.inl hbuilt
        · obtain rfl := List.mem_singleton.1 hlast
          exact Or.inr ⟨next, List.mem_cons_self, rfl, hplacement⟩
      · exact Or.inr ⟨ts, List.mem_cons_of_mem _ hts, hname, hbuild⟩

/-- The router of a table is one of those that were built. -/
theorem mem_of_buildPlacement {routers : List Router} {name : String} {ts : TableSettings}
    {r : Router} (h : buildPlacement s routers name ts = .ok (.routed r)) : r ∈ routers := by
  unfold buildPlacement at h
  split at h
  · split at h
    · next hfind => cases h; exact List.mem_of_find?_eq_some hfind
    · cases h
  · obtain ⟨-, -, h⟩ := bind_eq_ok_iff.1 h
    cases h
  · obtain ⟨-, -, h⟩ := bind_eq_ok_iff.1 h
    cases h
  · cases h

/-- The router of a table of an accepted catalog is built from settings of its own. -/
theorem exists_settings_of_mem {c : Catalog} (h : build registry s = .ok c) {t : Table}
    (ht : t ∈ c.tables) {r : Router} (hr : t.placement = .routed r) :
    ∃ rs ∈ s.routers, Router.build registry rs = .ok r := by
  obtain ⟨routers, hrouters, h⟩ := bind_eq_ok_iff.1 h
  obtain ⟨tables, htables, h⟩ := bind_eq_ok_iff.1 h
  cases h
  rcases exists_settings_of_mem_buildTables htables ht with hnil | ⟨ts, -, -, hplace⟩
  · cases hnil
  · rw [hr] at hplace
    rcases exists_settings_of_mem_buildRouters hrouters (mem_of_buildPlacement hplace) with
      hnil | hrs
    · cases hnil
    · exact hrs

/-- A table that is found is one of the catalog, under the compared form of the name. -/
theorem mem_of_find {c : Catalog} {table : String} {t : Table} (h : c.find table = .ok t) :
    t ∈ c.tables ∧ t.name = Identifier.normalize table := by
  unfold find at h
  simp only at h
  split at h
  · next hfind =>
    cases h
    exact ⟨List.mem_of_find?_eq_some hfind, by simpa using List.find?_some hfind⟩
  · cases h

/-- The rule of a routed table of an accepted catalog is built from settings of its own. -/
theorem exists_build_of_find {c : Catalog} (h : build registry s = .ok c) {table : String}
    {t : Table} (hfind : c.find table = .ok t) {r : Router} (hr : t.placement = .routed r) :
    ∃ rs, Rule.build registry rs = .ok r.rule := by
  obtain ⟨rs, -, hrouter⟩ := exists_settings_of_mem h (mem_of_find hfind).1 hr
  exact ⟨rs.rule, (Router.build_eq_ok_iff.1 hrouter).2.2.2.2⟩

/-- The algorithm of a routed table of an accepted catalog is a registered one. -/
theorem exists_find?_of_find {c : Catalog} (h : build registry s = .ok c) {table : String}
    {t : Table} (hfind : c.find table = .ok t) {r : Router} (hr : t.placement = .routed r)
    {run : KeyAlgorithm} {args : List Int64} (hkind : r.rule.kind = .algorithm run args) :
    ∃ name, registry.find? name = some run := by
  obtain ⟨rs, hrule⟩ := exists_build_of_find h hfind hr
  have hbuilt := (Rule.build_eq_ok_iff.1 hrule).2.2
  rw [hkind] at hbuilt
  exact Rule.find?_of_buildKind hbuilt

end Catalog

end ShardRouting
