import CatalogPlan.Proofs.Graph.References

/-!
# What a graph holds

The graph of a snapshot holds the first arrivals and the schemas that references
add, for every pair of objects the most binding edge that some reference
declares, and a diagnostic for every reference that leads nowhere.
-/

namespace CatalogPlan

/-- References are those of some arrivals that lead nowhere, each once and in
order. -/
structure Unmet (os : List Object) (refs : List (Identity × Dependency)) : Prop where
  distinct : refs.Pairwise fun a b => sameReference a b = false
  sorted : refs.Pairwise fun a b => referenceLe a b = true
  sound : ∀ r ∈ refs, resolved? os r.2.target = none ∧
    ∃ o ∈ os, o.identity.same r.1 = true ∧ r.2 ∈ o.dependencies
  complete : ∀ o ∈ os, ∀ d ∈ o.dependencies, resolved? os d.target = none →
    ∃ r ∈ refs, sameReference r (o.identity, d) = true

/-- A graph is exactly what some arrivals say. -/
structure Exact (os : List Object) (g : Graph) : Prop where
  objects : ∀ o, o ∈ g.objects ↔ captured? os o.identity = some o ∨
    ∃ s, NeedsSchema os s ∧ o = Graph.syntheticSchema s
  nodes_nodup : (g.nodes.map Identity.address).Nodup
  edges : ∀ e, e ∈ g.edges ↔ Declares os e ∧
    ∀ k, Declares os k → k.arc = e.arc → k.edgeClass.binding ≤ e.edgeClass.binding
  joined : ∀ k, Declares os k → ∃ e ∈ g.edges, e.arc = k.arc
  arcs_nodup : (g.edges.map Edge.arc).Nodup
  ends : ∀ e ∈ g.edges, e.source ∈ g.nodes ∧ e.target ∈ g.nodes
  resolving : ∀ o ∈ os, ∀ d ∈ o.dependencies, ∀ t, resolved? os d.target = some t →
    t.same o.identity = false → ∃ e, Becomes os o d e
  diagnostics : ∃ refs, Unmet os refs ∧
    g.diagnostics = refs.map fun r => ⟨r.1, r.2.target, Graph.outOfScope⟩

namespace EdgeClass

theorem binding_inj {a b : EdgeClass} (h : a.binding = b.binding) : a = b := by
  cases a <;> cases b <;> first | rfl | exact absurd h (by decide)

end EdgeClass

theorem Edge.eq_of_arc {nodes : List Identity} (hn : (nodes.map Identity.address).Nodup) {e k : Edge}
    (he : e.source ∈ nodes ∧ e.target ∈ nodes) (hk : k.source ∈ nodes ∧ k.target ∈ nodes)
    (ha : e.arc = k.arc) (hc : e.edgeClass = k.edgeClass) : e = k := by
  obtain ⟨hs, ht⟩ := Prod.mk.inj ha
  have hsource := List.inj_on_of_nodup_map hn he.1 hk.1 hs
  have htarget := List.inj_on_of_nodup_map hn he.2 hk.2 ht
  cases e
  cases k
  simp_all

theorem Edge.orient_cases (e : Edge) : e.orient = e ∨ e.orient = ⟨e.target, e.source, .ownership⟩ := by
  unfold orient
  split
  · exact .inr rfl
  · exact .inl rfl

-- ---------------------------------------------------------------------------
-- Objects
-- ---------------------------------------------------------------------------

theorem mem_assembled_objects : o ∈ (assembled os (orderedReferences os) found).objects ↔
    captured? os o.identity = some o ∨ ∃ s, NeedsSchema os s ∧ o = Graph.syntheticSchema s := by
  simp only [assembled, List.mem_append, mem_firsts, List.mem_map, needsSchema_iff, eq_comm (b := o)]

theorem assembled_nodup (os : List Object) (found : List (Option Edge)) :
    ((assembled os (orderedReferences os) found).nodes.map Identity.address).Nodup := by
  have heq : (assembled os (orderedReferences os) found).nodes.map Identity.address =
      (firsts os).map (·.identity.address) ++
        (newSchemas os (orderedReferences os)).map Identity.address := by
    simp only [Graph.nodes, assembled, List.map_append, List.map_map]
    rfl
  rw [heq]
  refine List.nodup_append'.mpr ⟨firsts_nodup os, distinctIdentities_nodup _, ?_⟩
  intro a ha hs
  obtain ⟨s, hnew, rfl⟩ := List.mem_map.mp hs
  have hnone := (isNewSchema_iff.mp (mem_newSchemas hnew).1).2.2
  rw [← captured?_firsts] at hnone
  exact captured?_eq_none_iff.mp hnone ha

theorem mem_nodes_of_objects (h : ∀ o, o ∈ Graph.objects g ↔ captured? os o.identity = some o ∨
    ∃ s, NeedsSchema os s ∧ o = Graph.syntheticSchema s) :
    i ∈ g.nodes ↔ (∃ o, captured? os o.identity = some o ∧ o.identity = i) ∨ NeedsSchema os i := by
  simp only [Graph.nodes, List.mem_map, h]
  constructor
  · rintro ⟨o, ho | ⟨s, hs, rfl⟩, rfl⟩
    · exact .inl ⟨o, ho, rfl⟩
    · exact .inr hs
  · rintro (⟨o, ho, rfl⟩ | hs)
    · exact ⟨o, .inl ho, rfl⟩
    · exact ⟨Graph.syntheticSchema i, .inr ⟨i, hs, rfl⟩, rfl⟩

theorem mem_assembled_nodes : i ∈ (assembled os (orderedReferences os) found).nodes ↔
    (∃ o, captured? os o.identity = some o ∧ o.identity = i) ∨ NeedsSchema os i :=
  mem_nodes_of_objects fun _ => mem_assembled_objects

-- ---------------------------------------------------------------------------
-- Edges
-- ---------------------------------------------------------------------------

theorem Declares.ends (h : Declares os e) (found : List (Option Edge)) :
    e.source ∈ (assembled os (orderedReferences os) found).nodes ∧
      e.target ∈ (assembled os (orderedReferences os) found).nodes := by
  obtain ⟨o, ho, d, hd, first, t, c, hfirst, hres, -, -, rfl⟩ := h
  have hsource : first.identity ∈ (assembled os (orderedReferences os) found).nodes := by
    refine mem_assembled_nodes.mpr (.inl ⟨first, ?_, rfl⟩)
    rw [captured?_congr os (captured?_mem hfirst).2]
    exact hfirst
  have htarget : t ∈ (assembled os (orderedReferences os) found).nodes := by
    refine mem_assembled_nodes.mpr ?_
    rcases resolved?_eq_some_iff.mp hres with ⟨k, hk, rfl⟩ | ⟨hnew, rfl⟩
    · exact .inl ⟨k, registered?_mem hk, rfl⟩
    · exact .inr ⟨hnew, o, ho, d, hd, rfl⟩
  rcases Edge.orient_cases ⟨first.identity, t, c⟩ with h | h <;> rw [h]
  · exact ⟨hsource, htarget⟩
  · exact ⟨htarget, hsource⟩

theorem Declares.loopless (h : Declares os e) : e.source.address ≠ e.target.address := by
  obtain ⟨o, -, d, -, first, t, c, hfirst, -, hs, -, rfl⟩ := h
  have hne : t.address ≠ first.identity.address := by
    rw [(captured?_mem hfirst).2]
    exact Identity.same_eq_false.mp hs
  rcases Edge.orient_cases ⟨first.identity, t, c⟩ with h | h <;> rw [h]
  · exact hne.symm
  · exact hne

theorem mem_outcomes (h : (orderedReferences os).mapM (outcome os failed) = .ok found) :
    e ∈ found.filterMap id ↔ Declares os e := by
  simp only [List.mem_filterMap, id_eq, exists_eq_right]
  constructor
  · intro he
    obtain ⟨r, hr, ho⟩ := forall₂_mem_right (mapM_ok.mp h) he
    exact becomes_of_outcome ho hr
  · rintro ⟨o, ho, d, hd, hb⟩
    obtain ⟨r, hr, hout⟩ := outcome_of_becomes ho hd hb
    obtain ⟨x, hx, hout'⟩ := forall₂_mem_left (mapM_ok.mp h) hr
    rw [hout] at hout'
    exact Except.ok.inj hout' ▸ hx

theorem mem_assembled_edges (h : (orderedReferences os).mapM (outcome os failed) = .ok found) :
    e ∈ (assembled os (orderedReferences os) found).edges ↔ Declares os e ∧
      ∀ k, Declares os k → k.arc = e.arc → k.edgeClass.binding ≤ e.edgeClass.binding := by
  have hs := strongest_foldl (found.filterMap id)
  constructor
  · intro he
    refine ⟨(mem_outcomes h).mp (hs.subset he), fun k hk ha => ?_⟩
    obtain ⟨e', he', ha', hb⟩ := hs.covers k ((mem_outcomes h).mpr hk)
    obtain rfl := List.inj_on_of_nodup_map hs.arcs_nodup he' he (ha'.trans ha)
    exact hb
  · rintro ⟨hd, hmax⟩
    obtain ⟨k, hk, ha, hb⟩ := hs.covers e ((mem_outcomes h).mpr hd)
    have hdk := (mem_outcomes h).mp (hs.subset hk)
    have hclass : e.edgeClass = k.edgeClass :=
      EdgeClass.binding_inj (Nat.le_antisymm hb (hmax k hdk ha))
    rwa [Edge.eq_of_arc (assembled_nodup os found) (hd.ends found) (hdk.ends found) ha.symm hclass]

-- ---------------------------------------------------------------------------
-- Diagnostics
-- ---------------------------------------------------------------------------

theorem filterMap_dropped? (os : List Object) (refs : List (Identity × Dependency)) :
    refs.filterMap (dropped? os) = (refs.filter fun r => (resolved? os r.2.target).isNone).map
      fun r => ⟨r.1, r.2.target, Graph.outOfScope⟩ := by
  induction refs with
  | nil => rfl
  | cons r rest ih =>
    cases h : (resolved? os r.2.target).isNone <;> simp [dropped?, h, ih]

theorem unmet_orderedReferences (hnamed : ∀ o ∈ os, o.identity.isNumeric = false) :
    Unmet os ((orderedReferences os).filter fun r => (resolved? os r.2.target).isNone) := by
  refine ⟨(orderedReferences_distinct os).filter _, (orderedReferences_sorted hnamed).filter _,
    ?_, ?_⟩
  · intro r hr
    obtain ⟨hr, hnone⟩ := List.mem_filter.mp hr
    obtain ⟨o, ho, ha, hd, -⟩ := arrival_of_reference hr
    exact ⟨by simpa using hnone, o, ho, Identity.same_iff.mpr ha, hd⟩
  · intro o ho d hd hnone
    obtain ⟨first, k, hfirst, hr, hp⟩ := reference_of_arrival ho hd
    have hk : resolved? os k.target = none := by
      rw [resolved?_congr os (congrArg Prod.fst hp), hnone]
    exact ⟨_, List.mem_filter.mpr ⟨hr, by simp [hk]⟩,
      sameReference_iff.mpr ⟨(captured?_mem hfirst).2, hp⟩⟩

-- ---------------------------------------------------------------------------
-- The whole graph
-- ---------------------------------------------------------------------------

theorem exact_assembled (hnamed : ∀ o ∈ os, o.identity.isNumeric = false)
    (h : (orderedReferences os).mapM (outcome os failed) = .ok found) :
    Exact os (assembled os (orderedReferences os) found) := by
  have hs := strongest_foldl (found.filterMap id)
  refine ⟨fun _ => mem_assembled_objects, assembled_nodup os found, fun _ => mem_assembled_edges h,
    ?_, hs.arcs_nodup, ?_, ?_, _, unmet_orderedReferences hnamed, filterMap_dropped? os _⟩
  · intro k hk
    obtain ⟨e, he, ha, -⟩ := hs.covers k ((mem_outcomes h).mpr hk)
    exact ⟨e, he, ha⟩
  · exact fun e he => ((mem_assembled_edges h).mp he).1.ends found
  · intro o ho d hd t hres hs
    obtain ⟨first, k, hfirst, hr, hp⟩ := reference_of_arrival ho hd
    obtain ⟨htarget, hclass⟩ := Prod.mk.inj hp
    have ha := (captured?_mem hfirst).2
    have hres' : resolved? os k.target = some t := by rw [resolved?_congr os htarget, hres]
    have hself : captured? os first.identity = some first := by rwa [captured?_congr os ha]
    obtain ⟨x, -, hout⟩ := forall₂_mem_left (mapM_ok.mp h) hr
    rw [outcome_of_resolved hres', Identity.same_congr ha, hs, edgeClassOf_captured hself] at hout
    obtain ⟨c, hc, -⟩ := map_ok.mp hout
    exact ⟨_, first, t, c, hfirst, hres, hs, by rw [← hclass]; exact hc, rfl⟩

theorem Exact.digraph (h : Exact os g) (hnamed : ∀ o ∈ os, o.identity.isNumeric = false) :
    Digraph g.nodes g.edges := by
  refine ⟨h.nodes_nodup, ?_, fun e he => (h.ends e he).1, fun e he => (h.ends e he).2,
    fun e he => ((h.edges e).mp he).1.loopless, h.arcs_nodup⟩
  intro i hi
  obtain ⟨o, ho, rfl⟩ := List.mem_map.mp hi
  rcases (h.objects o).mp ho with hc | ⟨s, hs, rfl⟩
  · exact hnamed o (captured?_mem hc).1
  · exact (isNewSchema_iff.mp hs.1).1

/-- A graph that is built is exactly what the arrivals say. -/
theorem build_exact {failedKinds : List Value}
    (h : (Graph.build batches failedKinds).result = .ok g) : Exact (arrivals batches) g := by
  obtain ⟨failed, -, hcons, found, hfound, rfl⟩ := build_ok.mp h
  exact exact_assembled hcons.named hfound

def shop : Batches :=
  [("table",
      [⟨⟨.table, .name "shop.orders"⟩, [],
        [⟨⟨.namespace, .name "shop"⟩, none⟩, ⟨⟨.table, .name "shop.customers"⟩, none⟩,
          ⟨⟨.sequence, .name "shop.orders_id_seq"⟩, none⟩, ⟨⟨.type, .oid 23⟩, none⟩], some 16400⟩,
        ⟨⟨.table, .name "shop.customers"⟩, [], [⟨⟨.table, .oid 16400⟩, none⟩], none⟩]),
    ("sequence",
      [⟨⟨.sequence, .name "shop.orders_id_seq"⟩, [], [⟨⟨.table, .oid 16400⟩, none⟩], none⟩])]

theorem build_exact_shop : ∃ g, (Graph.build shop []).result = .ok g ∧ Exact (arrivals shop) g := by
  obtain ⟨g, hg⟩ : ∃ g, (Graph.build shop []).result = .ok g := isOk_iff.mp (by decide)
  exact ⟨g, hg, build_exact hg⟩

end CatalogPlan
