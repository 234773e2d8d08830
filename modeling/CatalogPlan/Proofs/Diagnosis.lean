import CatalogPlan.Proofs.Classes

/-!
# What is reported of cycles that cannot be broken

Of all classes with a cycle of edges that cannot be deferred, the one with the
least sort key is reported: all its objects on such cycles, and the edges that
cannot be deferred between these. An edge of such a cycle is among them, and so
is one that leads from one such cycle to another.
-/

namespace CatalogPlan

open Acyclic (arcs fixed own memberClass fixedCycle? trapped Leads)
open Reach (Path OnCycle Mutual)

namespace Graph

/-- An object that depends on `i` and on which `i` depends, on a cycle of edges
that cannot be deferred. Such a cycle lies within the class of its objects. -/
structure Trapped (g : Graph) (i j : Identity) : Prop where
  mem : j ∈ g.nodes
  shared : Mutual (arcs g.edges) i.address j.address
  onCycle : OnCycle (arcs (fixed g.edges)) j.address

def Closes (g : Graph) (e : Edge) : Prop :=
  e ∈ fixed g.edges ∧ Path (arcs (fixed g.edges)) e.target.address e.source.address

/-- An edge that cannot be deferred and leads, one way only, from a cycle of such
edges to another. -/
structure Bridges (g : Graph) (e : Edge) : Prop where
  mem : e ∈ fixed g.edges
  source : OnCycle (arcs (fixed g.edges)) e.source.address
  target : OnCycle (arcs (fixed g.edges)) e.target.address
  oneWay : ¬ Path (arcs (fixed g.edges)) e.target.address e.source.address

structure Reports (g : Graph) (first : Identity) (identities : List Identity)
    (listed : List Edge) : Prop where
  mem_identities : ∀ j, j ∈ identities ↔ g.Trapped first j
  identities_sorted : identities.Pairwise fun j k =>
    sortKeyLe j.sortKey k.sortKey = true ∧ j.sortKey ≠ k.sortKey
  mem_listed : ∀ e, e ∈ listed ↔
    e ∈ fixed g.edges ∧ e.source ∈ identities ∧ e.target ∈ identities
  listed_sorted : listed.Pairwise fun e d =>
    edgeKeyLe e.sortKey d.sortKey = true ∧ e.sortKey ≠ d.sortKey

variable {g : Graph} {identities : List Identity} {listed : List Edge}

theorem fixed_subset (g : Graph) : arcs (fixed g.edges) ⊆ arcs g.edges :=
  Acyclic.arcs_mono List.filter_sublist.subset

theorem exists_trapped (hd : Digraph g.nodes g.edges) (h : OnCycle (arcs (fixed g.edges)) a)
    (hm : Mutual (arcs g.edges) i.address a) : ∃ j, j.address = a ∧ g.Trapped i j := by
  obtain ⟨b, hs, -⟩ := h.step
  obtain ⟨e, he, rfl, rfl⟩ := Digraph.step_iff.mp hs
  exact ⟨e.source, rfl, hd.source_mem e (Acyclic.mem_fixed.mp he).1, hm, h⟩

theorem Trapped.across (hd : Digraph g.nodes g.edges) (h : g.Trapped i e.source)
    (he : g.Closes e) : g.Trapped i e.target := by
  have hstep := Digraph.step_of_mem he.1
  have hmutual : Mutual (arcs (fixed g.edges)) e.source.address e.target.address :=
    ⟨.single hstep, he.2⟩
  refine ⟨hd.target_mem e (Acyclic.mem_fixed.mp he.1).1, h.shared.trans ?_,
    hmutual.onCycle h.onCycle⟩
  exact ⟨hmutual.1.mono (fixed_subset g), hmutual.2.mono (fixed_subset g)⟩

theorem mem_trapped (hd : Digraph g.nodes g.edges) :
    a ∈ trapped (memberClass g.nodes g.edges i) (own g.edges (memberClass g.nodes g.edges i)) ↔
      Mutual (arcs g.edges) i.address a ∧ OnCycle (arcs (fixed g.edges)) a :=
  (Acyclic.mem_trapped hd).trans (Acyclic.onCycle_fixed_own hd)

theorem mem_members_trapped (hd : Digraph g.nodes g.edges) :
    j ∈ Acyclic.members (memberClass g.nodes g.edges i) (trapped (memberClass g.nodes g.edges i)
      (own g.edges (memberClass g.nodes g.edges i))) ↔ g.Trapped i j := by
  rw [Acyclic.mem_members, Acyclic.mem_memberClass, mem_trapped hd]
  exact ⟨fun h => ⟨h.1.1, h.2.1, h.2.2⟩, fun h => ⟨⟨h.mem, h.shared⟩, h.shared, h.onCycle⟩⟩

theorem mem_closing (hd : Digraph g.nodes g.edges) :
    e ∈ (fixed (own g.edges (memberClass g.nodes g.edges i))).filter (·.inside
      (trapped (memberClass g.nodes g.edges i) (own g.edges (memberClass g.nodes g.edges i)))) ↔
        e ∈ fixed g.edges ∧ g.Trapped i e.source ∧ g.Trapped i e.target := by
  simp only [List.mem_filter, Edge.inside_iff, mem_trapped hd, Acyclic.mem_fixed,
    Acyclic.mem_own_memberClass hd]
  constructor
  · rintro ⟨⟨⟨he, -⟩, hclass⟩, ⟨hs, hsc⟩, ht, htc⟩
    exact ⟨⟨he, hclass⟩, ⟨hd.source_mem e he, hs, hsc⟩, hd.target_mem e he, ht, htc⟩
  · rintro ⟨⟨he, hclass⟩, hs, ht⟩
    exact ⟨⟨⟨he, hs.shared, ht.shared⟩, hclass⟩, ⟨hs.shared, hs.onCycle⟩, ht.shared, ht.onCycle⟩

theorem reports_of_fault (hd : Digraph g.nodes g.edges)
    (h : fixedCycle? (memberClass g.nodes g.edges i)
      (own g.edges (memberClass g.nodes g.edges i)) = some (.unbreakable identities listed)) :
    identities ≠ [] ∧ g.Reports i identities listed := by
  obtain ⟨hne, heq⟩ := Acyclic.fixedCycle?_eq_some h
  obtain ⟨rfl, rfl⟩ := Fault.unbreakable.inj heq
  refine ⟨?_, fun j => mem_members_trapped hd, ?_, fun e => ?_, ?_⟩
  · obtain ⟨a, ha⟩ := List.exists_mem_of_ne_nil _ hne
    obtain ⟨hm, hc⟩ := (mem_trapped hd).mp ha
    obtain ⟨j, -, hj⟩ := exists_trapped hd hc hm
    exact List.ne_nil_of_mem ((mem_members_trapped hd).mpr hj)
  · refine hd.sortIdentities_strict (fun j hj => ?_)
      (((Acyclic.memberClass_addresses_nodup hd i).of_map _).filter _)
    exact (Acyclic.mem_memberClass.mp (List.mem_filter.mp hj).1).1
  · rw [sortEdges, mem_sortOn, mem_closing hd, mem_members_trapped hd, mem_members_trapped hd]
  · refine (hd.sublist ?_).sortEdges_strict
    exact List.filter_sublist.trans (List.filter_sublist.trans (Acyclic.own_sublist ..))

theorem breakCycles_reports (hd : Digraph g.nodes g.edges)
    (h : g.breakCycles.result = .error (.unbreakable identities listed)) :
    ∃ first, Leads g.nodes g.edges first ∧ identities ≠ [] ∧ g.Reports first identities listed ∧
      ∀ i j, Leads g.nodes g.edges i → g.Trapped i j →
        sortKeyLe first.sortKey i.sortKey = true := by
  have hfault : ((Acyclic.components g.nodes g.edges).findSome? fun c =>
      fixedCycle? c (own g.edges c)) = some (.unbreakable identities listed) := by
    rw [breakCycles_result] at h
    cases hf : (Acyclic.components g.nodes g.edges).findSome? fun c =>
        fixedCycle? c (own g.edges c) with
    | none => simp [hf] at h
    | some fault => simpa [hf] using h
  obtain ⟨before, c, after, hsplit, hc, hbefore⟩ := List.findSome?_eq_some_iff.mp hfault
  have hmem : c ∈ Acyclic.components g.nodes g.edges := by simp [hsplit]
  obtain ⟨first, hfirst, -, rfl⟩ := (Acyclic.mem_components_leads hd).mp hmem
  obtain ⟨hne, hreports⟩ := reports_of_fault hd hc
  refine ⟨first, hfirst, hne, hreports, fun i j hi hj => ?_⟩
  have hcyclic : OnCycle (arcs g.edges) i.address :=
    Mutual.onCycle hj.shared.symm (hj.onCycle.mono (fixed_subset g))
  have hclass := (Acyclic.mem_components_leads hd).mpr ⟨i, hi, hcyclic, rfl⟩
  have hsorted := Acyclic.components_sorted hd
  rw [hsplit] at hclass hsorted
  rcases List.mem_append.mp hclass with hclass | hclass
  · -- A class before the one that is reported has no such cycle.
    have hnone := (Acyclic.fixedCycle?_eq_none hd i).mp (hbefore _ hclass)
    exact absurd ((Acyclic.onCycle_fixed_own hd).mpr ⟨hj.shared, hj.onCycle⟩) (hnone j.address)
  · rcases List.mem_cons.mp hclass with heq | hclass
    · refine hfirst.le i hi.mem ?_
      have hself : i ∈ memberClass g.nodes g.edges first :=
        heq ▸ Acyclic.mem_memberClass.mpr ⟨hi.mem, .refl ..⟩
      exact (Acyclic.mem_memberClass.mp hself).2
    · have hafter := (List.pairwise_append.mp hsorted).2.1
      exact (List.pairwise_cons.mp hafter).1 _ hclass first i hfirst hi rfl rfl

end Graph

-- ---------------------------------------------------------------------------
-- Graphs that were built
-- ---------------------------------------------------------------------------

variable {batches : Batches} {failedKinds : List Value} {g : Graph} {identities : List Identity}
  {listed : List Edge}

/-- The identities reported are those on cycles that cannot be broken, of one class:
the first, by its first member, of all classes with such a cycle. -/
theorem unbreakable_identities (hg : (Graph.build batches failedKinds).result = .ok g)
    (h : g.breakCycles.result = .error (.unbreakable identities listed)) :
    ∃ first, Leads g.nodes g.edges first ∧ (∃ j, g.Trapped first j) ∧
      (∀ i j, Leads g.nodes g.edges i → g.Trapped i j →
        sortKeyLe first.sortKey i.sortKey = true) ∧
      (∀ j, j ∈ identities ↔ g.Trapped first j) ∧
      identities.Pairwise fun j k =>
        sortKeyLe j.sortKey k.sortKey = true ∧ j.sortKey ≠ k.sortKey := by
  obtain ⟨first, hfirst, hne, hreports, hleast⟩ := Graph.breakCycles_reports (build_digraph hg) h
  obtain ⟨j, hj⟩ := List.exists_mem_of_ne_nil _ hne
  exact ⟨first, hfirst, ⟨j, (hreports.mem_identities j).mp hj⟩, hleast, hreports.mem_identities,
    hreports.identities_sorted⟩

def domains : Batches :=
  [("table",
      [⟨⟨.table, .name "app.t"⟩, [],
        [⟨⟨.type, .name "app.y"⟩, none⟩, ⟨⟨.sequence, .name "app.s"⟩, none⟩], none⟩]),
    ("type",
      [⟨⟨.type, .name "app.y"⟩, [], [⟨⟨.table, .name "app.t"⟩, none⟩], none⟩,
        ⟨⟨.type, .name "app.z"⟩, [],
          [⟨⟨.sequence, .name "app.s"⟩, none⟩, ⟨⟨.routine, .name "app.f()"⟩, none⟩], none⟩]),
    ("sequence",
      [⟨⟨.sequence, .name "app.s"⟩, [], [⟨⟨.type, .name "app.z"⟩, none⟩], none⟩]),
    ("function",
      [⟨⟨.routine, .name "app.f()"⟩, [], [⟨⟨.table, .name "app.t"⟩, none⟩], none⟩])]

def tangle : Batches :=
  domains ++
    [("table",
      [⟨⟨.table, .name "acl.p"⟩, [], [⟨⟨.table, .name "acl.q"⟩, none⟩], none⟩,
        ⟨⟨.table, .name "acl.q"⟩, [], [⟨⟨.table, .name "acl.p"⟩, none⟩], none⟩]),
    ("view",
      [⟨⟨.view, .name "web.v"⟩, [], [⟨⟨.view, .name "web.w"⟩, none⟩], none⟩,
        ⟨⟨.view, .name "web.w"⟩, [], [⟨⟨.view, .name "web.v"⟩, none⟩], none⟩])]

theorem unbreakable_identities_tangle : ∃ g identities listed first,
    (Graph.build tangle []).result = .ok g ∧
      g.breakCycles.result = .error (.unbreakable identities listed) ∧
      identities = [⟨.sequence, .name "app.s"⟩, ⟨.table, .name "app.t"⟩, ⟨.type, .name "app.y"⟩,
        ⟨.type, .name "app.z"⟩] ∧
      ∀ j, j ∈ identities ↔ g.Trapped first j := by
  have hrun : (Graph.build tangle [] >>= Graph.breakCycles).result = .error (.unbreakable
      [⟨.sequence, .name "app.s"⟩, ⟨.table, .name "app.t"⟩, ⟨.type, .name "app.y"⟩,
        ⟨.type, .name "app.z"⟩]
      [⟨⟨.sequence, .name "app.s"⟩, ⟨.type, .name "app.z"⟩, .structural⟩,
        ⟨⟨.table, .name "app.t"⟩, ⟨.sequence, .name "app.s"⟩, .ownership⟩,
        ⟨⟨.table, .name "app.t"⟩, ⟨.type, .name "app.y"⟩, .structural⟩,
        ⟨⟨.type, .name "app.y"⟩, ⟨.table, .name "app.t"⟩, .structural⟩,
        ⟨⟨.type, .name "app.z"⟩, ⟨.sequence, .name "app.s"⟩, .structural⟩]) := rfl
  obtain ⟨g, hg⟩ : ∃ g, (Graph.build tangle []).result = .ok g := isOk_iff.mp (by decide)
  rw [Traced.result_bind, hg] at hrun
  obtain ⟨first, -, -, -, hmem, -⟩ := unbreakable_identities hg hrun
  exact ⟨g, _, _, first, hg, hrun, rfl, hmem⟩

theorem mem_edgeClassNames {es : List Edge} :
    name ∈ edgeClassNames es ↔ ∃ e ∈ es, e.edgeClass.name = name := by
  simp [edgeClassNames, sortedTexts, (sortBy_perm _ _).mem_iff]

/-- The edges reported are those of cycles that cannot be broken through the
identities reported, and those that lead from one such cycle to another. Where
none of them does the latter, all lie on such cycles, and the classes reported are
those of the edges of such cycles. -/
theorem unbreakable_edges (hg : (Graph.build batches failedKinds).result = .ok g)
    (h : g.breakCycles.result = .error (.unbreakable identities listed)) :
    (∀ e, e ∈ listed ↔ e.source ∈ identities ∧
      (g.Closes e ∨ g.Bridges e ∧ e.target ∈ identities)) ∧
    (listed.Pairwise fun e d => edgeKeyLe e.sortKey d.sortKey = true ∧ e.sortKey ≠ d.sortKey) ∧
    ((∀ e ∈ listed, ¬ g.Bridges e) → (∀ e ∈ listed, g.Closes e) ∧
      ∀ name, name ∈ edgeClassNames listed ↔
        ∃ e, e.source ∈ identities ∧ g.Closes e ∧ e.edgeClass.name = name) := by
  have hd := build_digraph hg
  obtain ⟨first, -, -, hreports, -⟩ := Graph.breakCycles_reports hd h
  have hlisted : ∀ e, e ∈ listed ↔ e.source ∈ identities ∧
      (g.Closes e ∨ g.Bridges e ∧ e.target ∈ identities) := by
    intro e
    rw [hreports.mem_listed]
    constructor
    · rintro ⟨he, hs, ht⟩
      refine ⟨hs, ?_⟩
      by_cases hback : Path (arcs (fixed g.edges)) e.target.address e.source.address
      · exact .inl ⟨he, hback⟩
      · have hsource := (hreports.mem_identities _).mp hs
        have htarget := (hreports.mem_identities _).mp ht
        exact .inr ⟨⟨he, hsource.onCycle, htarget.onCycle, hback⟩, ht⟩
    · rintro ⟨hs, hcloses | ⟨hbridges, ht⟩⟩
      · have htarget := ((hreports.mem_identities _).mp hs).across hd hcloses
        exact ⟨hcloses.1, hs, (hreports.mem_identities _).mpr htarget⟩
      · exact ⟨hbridges.mem, hs, ht⟩
  refine ⟨hlisted, hreports.listed_sorted, fun hnone => ?_⟩
  have hcloses : ∀ e ∈ listed, g.Closes e := fun e he =>
    ((hlisted e).mp he).2.resolve_right fun hb => hnone e he hb.1
  refine ⟨hcloses, fun name => mem_edgeClassNames.trans ?_⟩
  constructor
  · rintro ⟨e, he, hname⟩
    exact ⟨e, ((hlisted e).mp he).1, hcloses e he, hname⟩
  · rintro ⟨e, hs, hc, hname⟩
    exact ⟨e, (hlisted e).mpr ⟨hs, .inl hc⟩, hname⟩

def serial : Batches :=
  [("table",
      [⟨⟨.table, .name "app.t"⟩, [], [⟨⟨.sequence, .name "app.s"⟩, none⟩], none⟩]),
    ("sequence",
      [⟨⟨.sequence, .name "app.s"⟩, [], [⟨⟨.type, .name "app.z"⟩, none⟩], none⟩]),
    ("type",
      [⟨⟨.type, .name "app.z"⟩, [], [⟨⟨.table, .name "app.t"⟩, none⟩], none⟩])]

theorem unbreakable_edges_serial : ∃ g identities listed,
    (Graph.build serial []).result = .ok g ∧
      g.breakCycles.result = .error (.unbreakable identities listed) ∧
      listed.length = 3 ∧ (∀ e ∈ listed, ¬ g.Bridges e) ∧ (∀ e ∈ listed, g.Closes e) ∧
      ∃ e, e.source ∈ identities ∧ g.Closes e ∧ e.edgeClass.name = "ownership" := by
  let t : Identity := ⟨.table, .name "app.t"⟩
  let s : Identity := ⟨.sequence, .name "app.s"⟩
  let z : Identity := ⟨.type, .name "app.z"⟩
  let edges : List Edge := [⟨s, z, .structural⟩, ⟨t, s, .ownership⟩, ⟨z, t, .structural⟩]
  have hrun : (Graph.build serial [] >>= Graph.breakCycles).result =
      .error (.unbreakable [s, t, z] edges) := rfl
  obtain ⟨g, hg⟩ : ∃ g, (Graph.build serial []).result = .ok g := isOk_iff.mp (by decide)
  have hedges : (Graph.build serial []).result.toOption.map Graph.edges = some edges := rfl
  rw [Traced.result_bind, hg] at hrun
  replace hedges : g.edges = edges := by simpa [hg, Except.toOption] using hedges
  have hback : ∀ e ∈ edges,
      Reach.reaches (arcs (fixed edges)) e.target.address e.source.address = true := by decide
  obtain ⟨-, -, hcloses⟩ := unbreakable_edges hg hrun
  have hnone : ∀ e ∈ edges, ¬ g.Bridges e := by
    intro e he hbridges
    have hpath := Reach.reaches_iff.mp (hback e he)
    exact hbridges.oneWay (hedges.symm ▸ hpath)
  obtain ⟨hall, hnames⟩ := hcloses hnone
  exact ⟨g, _, _, hg, hrun, rfl, hnone, hall, (hnames "ownership").mp (by decide)⟩

/-- The table owns the sequence, and both lie on cycles that cannot be broken, but
no such cycle leads from the sequence back to the table. -/
theorem unbreakable_edges_domains : ∃ g identities listed e,
    (Graph.build domains []).result = .ok g ∧
      g.breakCycles.result = .error (.unbreakable identities listed) ∧
      e ∈ listed ∧ ¬ g.Closes e ∧ e.edgeClass.name ∈ edgeClassNames listed ∧
      ∀ d, g.Closes d → d.edgeClass ≠ e.edgeClass := by
  let f : Identity := ⟨.routine, .name "app.f()"⟩
  let s : Identity := ⟨.sequence, .name "app.s"⟩
  let t : Identity := ⟨.table, .name "app.t"⟩
  let y : Identity := ⟨.type, .name "app.y"⟩
  let z : Identity := ⟨.type, .name "app.z"⟩
  let owns : Edge := ⟨t, s, .ownership⟩
  have hrun : (Graph.build domains [] >>= Graph.breakCycles).result =
      .error (.unbreakable [s, t, y, z] [⟨s, z, .structural⟩, owns, ⟨t, y, .structural⟩,
        ⟨y, t, .structural⟩, ⟨z, s, .structural⟩]) := rfl
  obtain ⟨g, hg⟩ : ∃ g, (Graph.build domains []).result = .ok g := isOk_iff.mp (by decide)
  have hedges : (Graph.build domains []).result.toOption.map Graph.edges =
      some [⟨f, t, .referential⟩, ⟨s, z, .structural⟩, owns, ⟨t, y, .structural⟩,
        ⟨y, t, .structural⟩, ⟨z, f, .structural⟩, ⟨z, s, .structural⟩] := rfl
  rw [Traced.result_bind, hg] at hrun
  simp only [hg, Except.toOption, Option.map_some, Option.some.injEq] at hedges
  have honly : ∀ d ∈ fixed g.edges, d.edgeClass = .ownership → d = owns := by
    rw [hedges]
    decide
  have hoff : ¬ g.Closes owns := by
    rintro ⟨-, hback⟩
    rw [hedges] at hback
    exact absurd (Reach.reaches_iff.mpr hback) (by decide)
  refine ⟨g, _, _, owns, hg, hrun, by simp, hoff, by decide, fun d hd hclass => ?_⟩
  exact hoff (honly d hd.1 hclass ▸ hd)

end CatalogPlan
