import CatalogPlan.Proofs.Graph.Resolution

/-!
# References and the edges they declare

References are taken in by source, target and class, each once, and a graph is
built when the objects are consistent and no reference has a fault. Of the edges
that references declare for one pair the most binding one stays.
-/

namespace CatalogPlan

-- ---------------------------------------------------------------------------
-- The most binding edges
-- ---------------------------------------------------------------------------

/-- Edges that hold the most binding of all, one for each pair. -/
structure Strongest (all es : List Edge) : Prop where
  arcs_nodup : (es.map Edge.arc).Nodup
  subset : es ⊆ all
  covers : ∀ a ∈ all, ∃ e ∈ es, e.arc = a.arc ∧ a.edgeClass.binding ≤ e.edgeClass.binding

namespace Strongest

variable {all es : List Edge}

theorem append (h : Strongest all es) (hnew : e.arc ∉ es.map Edge.arc) :
    Strongest (all ++ [e]) (es ++ [e]) := by
  refine ⟨?_, ?_, fun a ha => ?_⟩
  · rw [List.map_append]
    exact List.nodup_append'.mpr ⟨h.arcs_nodup, List.nodup_singleton _, by simpa using hnew⟩
  · exact List.append_subset.mpr
      ⟨List.Subset.trans h.subset (List.subset_append_left ..), List.subset_append_right ..⟩
  · rcases List.mem_append.mp ha with ha | ha
    · obtain ⟨k, hk, hka⟩ := h.covers a ha
      exact ⟨k, List.mem_append_left _ hk, hka⟩
    · obtain rfl := List.mem_singleton.mp ha
      exact ⟨a, by simp, rfl, Nat.le_refl _⟩

theorem keep (h : Strongest all es) (hk : known ∈ es) (ha : known.arc = e.arc)
    (hb : e.edgeClass.binding ≤ known.edgeClass.binding) : Strongest (all ++ [e]) es := by
  refine ⟨h.arcs_nodup, List.Subset.trans h.subset (List.subset_append_left ..), fun a hm => ?_⟩
  rcases List.mem_append.mp hm with hm | hm
  · exact h.covers a hm
  · obtain rfl := List.mem_singleton.mp hm
    exact ⟨known, hk, ha, hb⟩

theorem replace (h : Strongest all es) (hk : known ∈ es) (ha : known.arc = e.arc)
    (hb : known.edgeClass.binding ≤ e.edgeClass.binding) :
    Strongest (all ++ [e]) (es.map fun k => if k.joins e.source e.target then e else k) := by
  have harcs : (es.map fun k => if k.joins e.source e.target then e else k).map Edge.arc =
      es.map Edge.arc := by
    rw [List.map_map]
    refine List.map_congr_left fun k _ => ?_
    simp only [Function.comp_apply]
    split
    · rename_i hj
      exact (Edge.joins_edge.mp hj).symm
    · rfl
  have he : e ∈ es.map fun k => if k.joins e.source e.target then e else k :=
    List.mem_map.mpr ⟨known, hk, if_pos (Edge.joins_edge.mpr ha)⟩
  refine ⟨harcs.symm ▸ h.arcs_nodup, fun k hm => ?_, fun a hm => ?_⟩
  · obtain ⟨k', hk', rfl⟩ := List.mem_map.mp hm
    split
    · simp
    · exact List.mem_append_left _ (h.subset hk')
  · rcases List.mem_append.mp hm with hm | hm
    · obtain ⟨k, hkm, hka, hkb⟩ := h.covers a hm
      by_cases hj : k.joins e.source e.target = true
      · -- What covered `a` is the known edge, which `e` covers in its turn.
        have hke := Edge.joins_edge.mp hj
        obtain rfl := List.inj_on_of_nodup_map h.arcs_nodup hkm hk (hke.trans ha.symm)
        exact ⟨e, he, hke.symm.trans hka, hkb.trans hb⟩
      · exact ⟨k, List.mem_map.mpr ⟨k, hkm, if_neg hj⟩, hka, hkb⟩
    · obtain rfl := List.mem_singleton.mp hm
      exact ⟨a, he, rfl, Nat.le_refl _⟩

theorem snoc (h : Strongest all es) (e : Edge) : Strongest (all ++ [e]) (strengthen es e) := by
  unfold strengthen
  cases hf : es.find? (·.joins e.source e.target) with
  | none =>
    refine h.append fun hmem => ?_
    obtain ⟨k, hk, ha⟩ := List.mem_map.mp hmem
    exact absurd (Edge.joins_edge.mpr ha) (List.find?_eq_none.mp hf k hk)
  | some known =>
    have hknown := List.mem_of_find?_eq_some hf
    have harc : known.arc = e.arc := Edge.joins_edge.mp (by simpa using List.find?_some hf)
    simp only
    split
    · rename_i hle
      exact h.keep hknown harc hle
    · rename_i hlt
      exact h.replace hknown harc (Nat.le_of_not_le hlt)

end Strongest

theorem strongest_foldl (all : List Edge) : Strongest all (all.foldl strengthen []) := by
  induction all using List.reverseRecOn with
  | nil => exact ⟨by simp, by simp, by simp⟩
  | append_singleton all e ih =>
    rw [List.foldl_append]
    exact ih.snoc e

-- ---------------------------------------------------------------------------
-- The order of references
-- ---------------------------------------------------------------------------

def orderedReferences (os : List Object) : List (Identity × Dependency) :=
  (sortOn sortKeyLe (fun r : Identity × List Dependency => r.1.sortKey)
      ((firsts os).map fun o => (o.identity, referencesOf os o.identity))).flatMap
    fun r => (sortDependencies r.2).map (r.1, ·)

def referenceLe (a b : Identity × Dependency) : Bool :=
  lexLe (fun x y => sortKeyLe x y && x != y) dependencyKeyLe
    (a.1.sortKey, a.2.sortKey) (b.1.sortKey, b.2.sortKey)

def sameReference (a b : Identity × Dependency) : Bool :=
  a.1.same b.1 && a.2.same b.2

theorem sameReference_iff : sameReference a b = true ↔
    a.1.address = b.1.address ∧ a.2.point = b.2.point := by
  simp [sameReference, Identity.same_iff, Dependency.same_iff]

theorem Collected.sortedReferences (h : Collected os c) : c.sortedReferences = orderedReferences os := by
  unfold Collection.sortedReferences
  rw [h.references]
  rfl

theorem orderedReferences_eq (os : List Object) : orderedReferences os =
    (sortIdentities ((firsts os).map (·.identity))).flatMap fun i =>
      (sortDependencies (referencesOf os i)).map (i, ·) := by
  have hmap : (firsts os).map (fun o => (o.identity, referencesOf os o.identity)) =
      ((firsts os).map (·.identity)).map fun i => (i, referencesOf os i) := by
    rw [List.map_map]
    rfl
  rw [orderedReferences, hmap, sortOn_map, List.flatMap_map]
  rfl

theorem orderedReferences_filter (os : List Object) (p : Identity × Dependency → Bool) :
    (orderedReferences os).filter p =
      (sortIdentities ((firsts os).map (·.identity))).flatMap fun i =>
        (sortDependencies ((referencesOf os i).filter fun d => p (i, d))).map (i, ·) := by
  rw [orderedReferences_eq, List.filter_flatMap]
  congr 1
  funext i
  rw [List.filter_map]
  exact congrArg _ (sortOn_filter linearLe_dependencyKey Dependency.sortKey _ (referencesOf os i))

theorem mem_orderedReferences : r ∈ orderedReferences os ↔
    (∃ o, captured? os o.identity = some o ∧ o.identity = r.1) ∧ r.2 ∈ referencesOf os r.1 := by
  simp only [orderedReferences, List.mem_flatMap, mem_sortOn, List.mem_map, sortDependencies]
  constructor
  · rintro ⟨_, ⟨o, ho, rfl⟩, d, hd, rfl⟩
    exact ⟨⟨o, mem_firsts.mp ho, rfl⟩, hd⟩
  · rintro ⟨⟨o, ho, hr⟩, hd⟩
    exact ⟨_, ⟨o, mem_firsts.mpr ho, rfl⟩, r.2, hr ▸ hd, by rw [hr]⟩

theorem sortDependencies_nodup (os : List Object) (i : Identity) :
    (sortDependencies (referencesOf os i)).Pairwise fun a b => a.same b = false := by
  have hn : ((sortDependencies (referencesOf os i)).map Dependency.point).Nodup :=
    (List.Perm.nodup_iff ((sortOn_perm _ _ _).map _)).mpr (referencesOf_nodup os i)
  refine (List.pairwise_map.mp hn).imp fun hne => ?_
  rwa [← Bool.not_eq_true, Dependency.same_iff]

theorem sources_pairwise (os : List Object) :
    (sortOn sortKeyLe (fun r : Identity × List Dependency => r.1.sortKey)
      ((firsts os).map fun o => (o.identity, referencesOf os o.identity))).Pairwise
    fun a b => a.1.address ≠ b.1.address := by
  have hn : ((sortOn sortKeyLe (fun r : Identity × List Dependency => r.1.sortKey)
      ((firsts os).map fun o => (o.identity, referencesOf os o.identity))).map
      fun r => r.1.address).Nodup := by
    refine (List.Perm.nodup_iff ((sortOn_perm _ _ _).map _)).mpr ?_
    rw [List.map_map]
    exact firsts_nodup os
  exact List.pairwise_map.mp hn

theorem orderedReferences_distinct (os : List Object) :
    (orderedReferences os).Pairwise fun a b => sameReference a b = false := by
  refine List.pairwise_flatMap.mpr ⟨?_, ?_⟩
  · intro r hr
    obtain ⟨o, -, rfl⟩ := List.mem_map.mp (mem_sortOn.mp hr)
    refine List.pairwise_map.mpr ((sortDependencies_nodup os o.identity).imp fun hne => ?_)
    simp [sameReference, hne]
  · refine (sources_pairwise os).imp fun hne x hx y hy => ?_
    obtain ⟨d, -, rfl⟩ := List.mem_map.mp hx
    obtain ⟨k, -, rfl⟩ := List.mem_map.mp hy
    simp [sameReference, Identity.same_eq_false.mpr hne]

theorem orderedReferences_sorted (hnamed : ∀ o ∈ os, o.identity.isNumeric = false) :
    (orderedReferences os).Pairwise fun a b => referenceLe a b = true := by
  have hle : ∀ a b, referenceLe a b = true ↔ sortKeyLe a.1.sortKey b.1.sortKey = true ∧
      (a.1.sortKey = b.1.sortKey → dependencyKeyLe a.2.sortKey b.2.sortKey = true) :=
    fun a b => lexLe_iff linearLe_sortKey fun _ _ => rfl
  refine List.pairwise_flatMap.mpr ⟨?_, ?_⟩
  · intro r _
    refine List.pairwise_map.mpr
      ((sortOn_pairwise linearLe_dependencyKey Dependency.sortKey r.2).imp fun hab => ?_)
    exact (hle _ _).mpr ⟨linearLe_sortKey.refl _, fun _ => hab⟩
  · have hsorted := sortOn_pairwise linearLe_sortKey
      (fun r : Identity × List Dependency => r.1.sortKey)
      ((firsts os).map fun o => (o.identity, referencesOf os o.identity))
    refine (List.Pairwise.and hsorted (sources_pairwise os)).imp_of_mem ?_
    intro a b ha hb hab x hx y hy
    obtain ⟨d, -, rfl⟩ := List.mem_map.mp hx
    obtain ⟨k, -, rfl⟩ := List.mem_map.mp hy
    obtain ⟨o, ho, rfl⟩ := List.mem_map.mp (mem_sortOn.mp ha)
    obtain ⟨p, hp, rfl⟩ := List.mem_map.mp (mem_sortOn.mp hb)
    refine (hle _ _).mpr ⟨hab.1, fun heq => absurd ?_ hab.2⟩
    exact Identity.address_of_sortKey (hnamed o (firsts_subset os ho))
      (hnamed p (firsts_subset os hp)) heq

-- ---------------------------------------------------------------------------
-- Building
-- ---------------------------------------------------------------------------

theorem ofCollection_result (hc : Collected os c) (failed : List Kind) :
    (Graph.ofCollection c failed).result =
      ((orderedReferences os).mapM (outcome os failed)).map (assembled os (orderedReferences os)) := by
  have hrefs : ∀ r ∈ orderedReferences os, (captured? os r.1).isSome := by
    intro r hr
    obtain ⟨⟨o, ho, heq⟩, -⟩ := mem_orderedReferences.mp hr
    rw [← heq, ho]
    rfl
  unfold Graph.ofCollection
  rw [Traced.result_bind, hc.sortedReferences, addReferences_result hc failed _ hrefs]
  cases (orderedReferences os).mapM (outcome os failed) with
  | error fault => rfl
  | ok found => exact Traced.emit_bind _ _

/-- A graph is built exactly when the objects are consistent and no reference
has a fault. -/
theorem build_ok {failedKinds : List Value} : (Graph.build batches failedKinds).result = .ok g ↔
    ∃ failed, Graph.readKinds failedKinds = .ok failed ∧ Consistent (arrivals batches) ∧
      ∃ found, (orderedReferences (arrivals batches)).mapM
        (outcome (arrivals batches) failed.eraseDups) = .ok found ∧
      assembled (arrivals batches) (orderedReferences (arrivals batches)) found = g := by
  unfold Graph.build
  simp only [Traced.bind_ok, Traced.lift_result]
  have hrun : ∀ failed c, Collection.ofObjects (arrivals batches) = .ok c →
      ((Graph.ofCollection c failed).result = .ok g ↔ ∃ found,
        (orderedReferences (arrivals batches)).mapM (outcome (arrivals batches) failed) = .ok found ∧
        assembled (arrivals batches) (orderedReferences (arrivals batches)) found = g) := by
    intro failed c hc
    rw [ofCollection_result (Collection.ofObjects_ok hc)]
    cases (orderedReferences (arrivals batches)).mapM (outcome (arrivals batches) failed) <;>
      simp [Except.map]
  constructor
  · rintro ⟨failed, hfailed, c, hc, hg⟩
    exact ⟨failed, hfailed, (Collection.ofObjects_isOk _).mp ⟨c, hc⟩, (hrun _ c hc).mp hg⟩
  · rintro ⟨failed, hfailed, hcons, hg⟩
    obtain ⟨c, hc⟩ := (Collection.ofObjects_isOk _).mpr hcons
    exact ⟨failed, hfailed, c, hc, (hrun _ c hc).mpr hg⟩

theorem build_error {failedKinds : List Value} : (Graph.build batches failedKinds).result = .error fault ↔
    Graph.readKinds failedKinds = .error fault ∨ ∃ failed, Graph.readKinds failedKinds = .ok failed ∧
      (Collection.ofObjects (arrivals batches) = .error fault ∨ Consistent (arrivals batches) ∧
        (orderedReferences (arrivals batches)).mapM
          (outcome (arrivals batches) failed.eraseDups) = .error fault) := by
  unfold Graph.build
  simp only [Traced.bind_error, Traced.lift_result]
  have hrun : ∀ failed c, Collection.ofObjects (arrivals batches) = .ok c →
      ((Graph.ofCollection c failed).result = .error fault ↔
        (orderedReferences (arrivals batches)).mapM (outcome (arrivals batches) failed) = .error fault) := by
    intro failed c hc
    rw [ofCollection_result (Collection.ofObjects_ok hc), map_error]
  refine or_congr_right (exists_congr fun failed => and_congr_right fun _ => or_congr_right ?_)
  rw [← Collection.ofObjects_isOk]
  constructor
  · rintro ⟨c, hc, h⟩
    exact ⟨⟨c, hc⟩, (hrun _ c hc).mp h⟩
  · rintro ⟨⟨c, hc⟩, h⟩
    exact ⟨c, hc, (hrun _ c hc).mpr h⟩

-- ---------------------------------------------------------------------------
-- References of arrivals
-- ---------------------------------------------------------------------------

theorem arrival_of_reference (h : r ∈ orderedReferences os) : ∃ o ∈ os,
    o.identity.address = r.1.address ∧ r.2 ∈ o.dependencies ∧
      ∃ first, captured? os o.identity = some first ∧ first.identity = r.1 := by
  obtain ⟨⟨first, hfirst, heq⟩, hd⟩ := mem_orderedReferences.mp h
  obtain ⟨o, ho, ha, hd⟩ := mem_referencesOf hd
  refine ⟨o, ho, ha, hd, first, ?_, heq⟩
  rw [captured?_congr os (ha.trans (congrArg Identity.address heq).symm)]
  exact hfirst

theorem reference_of_arrival (ho : o ∈ os) (hd : d ∈ o.dependencies) :
    ∃ first k, captured? os o.identity = some first ∧
      (first.identity, k) ∈ orderedReferences os ∧ k.point = d.point := by
  have hsome : (captured? os o.identity).isSome := captured?_isSome_iff.mpr (List.mem_map_of_mem ho)
  obtain ⟨first, hfirst⟩ := Option.isSome_iff_exists.mp hsome
  have ha := (captured?_mem hfirst).2
  have hpoint : d.point ∈ (referencesOf os first.identity).map Dependency.point :=
    mem_referencesOf_points.mpr ⟨o, ho, ha.symm, d, hd, rfl⟩
  obtain ⟨k, hk, hp⟩ := List.mem_map.mp hpoint
  refine ⟨first, k, hfirst, mem_orderedReferences.mpr ⟨⟨first, ?_, rfl⟩, hk⟩, hp⟩
  rw [captured?_congr os ha]
  exact hfirst

/-- A reference of an arrival becomes an edge: it leads to another object, and
the edge has its class and direction. -/
def Becomes (os : List Object) (o : Object) (d : Dependency) (e : Edge) : Prop :=
  ∃ first t c, captured? os o.identity = some first ∧ resolved? os d.target = some t ∧
    t.same o.identity = false ∧ d.edgeClass.elim (defaultEdgeClass first t) .ok = .ok c ∧
    e = Edge.orient ⟨first.identity, t, c⟩

theorem Becomes.congr (h : Becomes os o d e) (ha : o.identity.address = k.identity.address)
    (hp : d.point = d'.point) : Becomes os k d' e := by
  obtain ⟨first, t, c, hfirst, hres, hs, hclass, rfl⟩ := h
  obtain ⟨htarget, hc⟩ := Prod.mk.inj hp
  refine ⟨first, t, c, ?_, ?_, ?_, ?_, rfl⟩
  · rw [← captured?_congr os ha, hfirst]
  · rw [← resolved?_congr os htarget, hres]
  · rw [← Identity.same_congr ha, hs]
  · rw [← hc, hclass]

def Declares (os : List Object) (e : Edge) : Prop :=
  ∃ o ∈ os, ∃ d ∈ o.dependencies, Becomes os o d e

/-- Some arrival refers to the schema by name, and it was not captured. -/
def NeedsSchema (os : List Object) (s : Identity) : Prop :=
  isNewSchema os s = true ∧ ∃ o ∈ os, ∃ d ∈ o.dependencies, d.target = s

theorem outcome_some (hfirst : captured? os r.1 = some first) : outcome os failed r = .ok (some e) ↔
    ∃ t c, resolved? os r.2.target = some t ∧ t.same r.1 = false ∧
      r.2.edgeClass.elim (defaultEdgeClass first t) .ok = .ok c ∧ e = Edge.orient ⟨r.1, t, c⟩ := by
  cases hres : resolved? os r.2.target with
  | none =>
    rw [outcome, hres]
    cases failed.filter (·.catalog = r.2.target.kind.catalog) <;> simp
  | some t =>
    rw [outcome_of_resolved hres, edgeClassOf_captured hfirst]
    cases hs : t.same r.1 with
    | true => simp [hs]
    | false =>
      simp only [Bool.false_eq_true, if_false, Option.some.injEq]
      constructor
      · cases hc : r.2.edgeClass.elim (defaultEdgeClass first t) .ok with
        | error fault => simp [Except.map]
        | ok c =>
          intro h
          exact ⟨t, c, rfl, hs, hc, (Option.some.inj (Except.ok.inj h)).symm⟩
      · rintro ⟨_, c, rfl, -, hc, rfl⟩
        rw [hc]
        rfl

theorem becomes_of_outcome (ho : outcome os failed r = .ok (some e))
    (hr : r ∈ orderedReferences os) : Declares os e := by
  obtain ⟨o, hos, ha, hd, first, hfirst, hid⟩ := arrival_of_reference hr
  have hfirst' : captured? os r.1 = some first := by rwa [captured?_congr os ha.symm]
  obtain ⟨t, c, hres, hs, hc, rfl⟩ := (outcome_some hfirst').mp ho
  refine ⟨o, hos, r.2, hd, first, t, c, hfirst, hres, ?_, hc, by rw [hid]⟩
  rw [Identity.same_congr ha]
  exact hs

theorem outcome_of_becomes (ho : o ∈ os) (hd : d ∈ o.dependencies) (hb : Becomes os o d e) :
    ∃ r ∈ orderedReferences os, outcome os failed r = .ok (some e) := by
  obtain ⟨first, k, hfirst, hr, hp⟩ := reference_of_arrival ho hd
  obtain ⟨_, t, c, hfirst', hres, hs, hc, rfl⟩ := hb
  obtain rfl := Option.some.inj (hfirst.symm.trans hfirst')
  obtain ⟨htarget, hclass⟩ := Prod.mk.inj hp
  have ha := (captured?_mem hfirst).2
  have hself : captured? os first.identity = some first := by rwa [captured?_congr os ha]
  refine ⟨_, hr, (outcome_some hself).mpr ⟨t, c, ?_, ?_, ?_, rfl⟩⟩
  · rw [resolved?_congr os htarget, hres]
  · rw [Identity.same_congr ha, hs]
  · rw [hclass, hc]

theorem needsSchema_iff : s ∈ newSchemas os (orderedReferences os) ↔ NeedsSchema os s := by
  constructor
  · intro hs
    obtain ⟨hnew, r, hr, rfl⟩ := mem_newSchemas hs
    obtain ⟨o, ho, -, hd, -⟩ := arrival_of_reference hr
    exact ⟨hnew, o, ho, r.2, hd, rfl⟩
  · rintro ⟨hnew, o, ho, d, hd, rfl⟩
    obtain ⟨first, k, -, hr, hp⟩ := reference_of_arrival ho hd
    have hkd : k.target = d.target :=
      (Identity.eq_of_namespace (congrArg Prod.fst hp).symm (isNewSchema_iff.mp hnew).2.1).symm
    have hmem : d.target ∈ ((orderedReferences os).map (·.2.target)).filter (isNewSchema os) :=
      List.mem_filter.mpr ⟨List.mem_map.mpr ⟨_, hr, hkd⟩, hnew⟩
    obtain ⟨j, hj, hs⟩ := distinctIdentities_covers hmem
    obtain rfl := Identity.eq_of_namespace (Identity.same_iff.mp hs).symm (isNewSchema_iff.mp hnew).2.1
    exact hj

end CatalogPlan
