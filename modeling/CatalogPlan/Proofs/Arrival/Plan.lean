import CatalogPlan.Proofs.Arrival.Routine
import CatalogPlan.Proofs.Congruence

/-!
# Plans do not depend on how objects arrive

Two snapshots that say the same both have a plan or both have none, whatever the
labels of their batches, the order and the repetitions of their objects, and the
way the references of an object are spread over its arrivals. The plans are the
same, and so are the graphs.
-/

namespace CatalogPlan

/-- Two runs give one plan for the same objects, edges and diagnostics. -/
structure SamePlanned (p q : Planned) : Prop where
  nodes : p.graph.nodes.Perm q.graph.nodes
  objects : ∀ o ∈ p.graph.objects, ∃ k ∈ q.graph.objects, o.Alike k
  edges : p.graph.sortedEdges = q.graph.sortedEdges
  diagnostics : (p.graph.diagnostics.map Diagnostic.place).Perm
    (q.graph.diagnostics.map Diagnostic.place)
  order : p.plan.order = q.plan.order
  deferred : p.plan.deferred = q.plan.deferred

/-- Two runs give one order and one list of deferred references, for graphs whose
objects are read alike. -/
structure LikePlanned (p q : Planned) : Prop where
  graph : LikeGraph p.graph q.graph
  edges : p.graph.sortedEdges = q.graph.sortedEdges
  order : p.plan.order = q.plan.order
  deferred : p.plan.deferred = q.plan.deferred

variable {batches batches' b b' : Batches} {failedKinds : List Value}

theorem build_consistent_exact (h : (Graph.build b failedKinds).result = .ok g) :
    Consistent (arrivals b) ∧ Exact (arrivals b) g := by
  obtain ⟨failed, -, hcons, found, hfound, rfl⟩ := build_ok.mp h
  exact ⟨hcons, exact_assembled hcons.named hfound⟩

theorem Retold.plan [Sql.Parser] (h : Retold (arrivals batches) (arrivals batches'))
    (hb' : (Routine.augmentAll batches').result = .ok b') (hcons : Consistent (arrivals b'))
    (hp : (CatalogPlan.plan batches failedKinds).result = .ok p) :
    ∃ q, (CatalogPlan.plan batches' failedKinds).result = .ok q ∧ LikePlanned p q ∧
      ((∀ o ∈ arrivals batches, o.Canonical) →
        p.graph.diagnostics.map Diagnostic.place = q.graph.diagnostics.map Diagnostic.place) := by
  obtain ⟨b, hb, g, hg, hf, rfl⟩ := plan_ok.mp hp
  have hretold := Routine.augmented_retold hb hb' h
  obtain ⟨g', hg'⟩ := hretold.build_isOk rfl rfl hcons hg
  have hexact := (build_consistent_exact hg).2
  have hexact' := (build_consistent_exact hg').2
  have hgraph := hretold.likeGraph hexact hexact'
  have hd := build_digraph hg
  have hplan : g.plan = g'.plan := Graph.plan_congr hd hgraph.nodes hgraph.edges
  refine ⟨_, plan_ok.mpr ⟨b', hb', g', hg', ?_, rfl⟩, ?_, fun hcanon => ?_⟩
  · exact (acyclic_congr (hgraph.edges.filter _)).mp hf
  · exact ⟨hgraph, Graph.sortedEdges_congr hd hgraph.edges, congrArg Plan.order hplan,
      congrArg Plan.deferred hplan⟩
  · exact hretold.diagnostics_eq hexact hexact' (Routine.augmented_canonical hb hcanon)

theorem build_exact_coherent (h : (Graph.build b failedKinds).result = .ok g)
    (hc : Comparable (arrivals b)) : Coherent (arrivals b) ∧ Exact (arrivals b) g :=
  (build_consistent_exact h).imp_left (consistent_iff_coherent hc).mp

theorem coherent_of_build [Sql.Parser] (hc : Comparable (arrivals batches))
    (hb : (Routine.augmentAll batches).result = .ok b)
    (hg : (Graph.build b failedKinds).result = .ok g) : Coherent (arrivals batches) :=
  have ⟨hforth, hback⟩ := Routine.exists_kept hb
  Routine.coherent_of_kept hforth
    (build_exact_coherent hg (Routine.comparable_of_kept hback hc)).1

theorem SameSnapshot.plan_isOk [Sql.Parser] (h : SameSnapshot (arrivals batches) (arrivals batches'))
    (hp : (plan batches failedKinds).result = .ok p) : ∃ q, (plan batches' failedKinds).result = .ok q := by
  obtain ⟨b, hb, g, hg, hf, rfl⟩ := plan_ok.mp hp
  have hc := coherent_of_build (h.comparable.subset (List.subset_append_left ..)) hb hg
  obtain ⟨b', hb'⟩ := Routine.augmentAll_like (h.retold hc) hb
  have hsame := Routine.augmented_sameSnapshot h hc hb hb'
  obtain ⟨-, -, hcons, -⟩ := build_ok.mp hg
  obtain ⟨q, hq, -⟩ := (h.retold hc).plan hb' (hsame.consistent_iff.mp hcons) hp
  exact ⟨q, hq⟩

/-- Two snapshots that say the same have the same plan, or none. -/
theorem plan_arrival [Sql.Parser] (h : SameSnapshot (arrivals batches) (arrivals batches'))
    (failedKinds : List Value) :
    ((∃ p, (plan batches failedKinds).result = .ok p) ↔
      ∃ q, (plan batches' failedKinds).result = .ok q) ∧
    ∀ p q, (plan batches failedKinds).result = .ok p → (plan batches' failedKinds).result = .ok q →
      SamePlanned p q ∧ ((∀ o ∈ arrivals batches, o.Canonical) →
        p.graph.diagnostics.map Diagnostic.place = q.graph.diagnostics.map Diagnostic.place) := by
  refine ⟨⟨fun ⟨_, hp⟩ => h.plan_isOk hp, fun ⟨_, hq⟩ => h.symm.plan_isOk hq⟩, ?_⟩
  intro p q hp hq
  obtain ⟨b, hb, g, hg, -, rfl⟩ := plan_ok.mp hp
  obtain ⟨b', hb', g', hg', -, rfl⟩ := plan_ok.mp hq
  have hc := coherent_of_build (h.comparable.subset (List.subset_append_left ..)) hb hg
  have hsame := Routine.augmented_sameSnapshot h hc hb hb'
  obtain ⟨hcb, hexact⟩ :=
    build_exact_coherent hg (hsame.comparable.subset (List.subset_append_left ..))
  obtain ⟨-, hexact'⟩ :=
    build_exact_coherent hg' (hsame.comparable.subset (List.subset_append_right ..))
  have hgraph := hsame.sameGraph hcb hexact hexact'
  have hd := build_digraph hg
  have hplan : g.plan = g'.plan := Graph.plan_congr hd hgraph.nodes hgraph.edges
  refine ⟨⟨hgraph.nodes, hgraph.objects, Graph.sortedEdges_congr hd hgraph.edges,
    hgraph.diagnostics, congrArg Plan.order hplan, congrArg Plan.deferred hplan⟩, fun hcanon => ?_⟩
  exact hsame.diagnostics_eq hcb hexact hexact' (Routine.augmented_canonical hb hcanon)

def shopRestated : Batches :=
  [("catalog",
      [⟨⟨.sequence, .name "shop.orders_id_seq"⟩, [], [⟨⟨.table, .oid 16400⟩, none⟩], none⟩,
        ⟨⟨.table, .name "shop.orders"⟩, [],
          [⟨⟨.type, .oid 23⟩, none⟩, ⟨⟨.table, .name "shop.customers"⟩, none⟩], some 16400⟩,
        ⟨⟨.table, .name "shop.customers"⟩, [], [⟨⟨.table, .oid 16400⟩, none⟩], none⟩,
        ⟨⟨.table, .name "shop.orders"⟩, [],
          [⟨⟨.sequence, .name "shop.orders_id_seq"⟩, none⟩, ⟨⟨.namespace, .name "shop"⟩, none⟩,
            ⟨⟨.type, .oid 23⟩, none⟩], some 16400⟩])]

theorem plan_arrival_shop : SameSnapshot (arrivals shop) (arrivals shopRestated) ∧
    ∃ p q, (plan shop []).result = .ok p ∧ (plan shopRestated []).result = .ok q ∧ SamePlanned p q := by
  have hsame : SameSnapshot (arrivals shop) (arrivals shopRestated) := by
    have hempty : ∀ o ∈ arrivals shop ++ arrivals shopRestated, o.payload.isEmpty := by decide
    have hcomparable : Comparable (arrivals shop ++ arrivals shopRestated) := by
      refine Comparable.of_proper fun o ho => ?_
      rw [List.isEmpty_iff.mp (hempty o ho)]
      exact .object List.nodup_nil (by simp)
    refine ⟨hcomparable, by decide, by decide, fun i d => ⟨?_, ?_⟩⟩
    · exact Refers.of_restated (by decide)
    · exact Refers.of_restated (by decide)
  obtain ⟨p, hp⟩ : ∃ p, (plan shop []).result = .ok p := isOk_iff.mp (by decide +kernel)
  obtain ⟨q, hq⟩ := (plan_arrival hsame []).1.mp ⟨p, hp⟩
  exact ⟨hsame, p, q, hp, hq, ((plan_arrival hsame []).2 p q hp hq).1⟩

end CatalogPlan
