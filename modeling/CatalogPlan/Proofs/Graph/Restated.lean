import CatalogPlan.Proofs.Canonical
import CatalogPlan.Proofs.Congruence
import CatalogPlan.Proofs.Graph.Compared

/-!
# References in other words

A captured object may be referred to by its name or by a number that one of its
arrivals has, under any kind of its catalog. Which of these a reference uses does
not bear on the graph: only what it leads to does.
-/

namespace CatalogPlan

/-- An identity stands for an object: it gives the name, or the number of some
arrival, and any kind of the same catalog. -/
inductive Denotes (os : List Object) (i : Identity) : Identity → Prop
  | name (kind : Kind) (catalog : kind.catalog = i.kind.catalog) : Denotes os i ⟨kind, i.key⟩
  | number (kind : Kind) (catalog : kind.catalog = i.kind.catalog) {k : Object} (arrival : k ∈ os)
      (same : k.identity.same i = true) {n : Int} (oid : k.oid = some n) : Denotes os i ⟨kind, .oid n⟩

/-- A reference as it is, or another of its class to the same captured object. -/
inductive Restates (os : List Object) : Dependency → Dependency → Prop
  | refl (d : Dependency) : Restates os d d
  | captured {o : Object} (arrival : o ∈ os) {s t : Identity} (hs : Denotes os o.identity s)
      (ht : Denotes os o.identity t) (edgeClass : Option EdgeClass) :
      Restates os ⟨s, edgeClass⟩ ⟨t, edgeClass⟩

inductive Restated (os : List Object) : Object → Object → Prop
  | given (i : Identity) (payload : Fields) (oid : Option Int) {ds ds' : List Dependency}
      (h : List.Forall₂ (Restates os) ds ds') :
      Restated os (.make i payload ds oid) (.make i payload ds' oid)

variable {os os' : List Object} {o o' : Object} {d d' : Dependency}

-- ---------------------------------------------------------------------------
-- What references in other words lead to
-- ---------------------------------------------------------------------------

theorem Denotes.registered (h : Denotes os o.identity t) (hcons : Consistent os) (ho : o ∈ os) :
    registered? os t = captured? os o.identity := by
  cases h with
  | name kind catalog =>
    have ha : (⟨kind, o.identity.key⟩ : Identity).address = o.identity.address := by
      rw [Identity.address, Identity.address, catalog]
    rw [registered?_named (Identity.isNumeric_congr ha ▸ hcons.named o ho), captured?_congr os ha]
  | @number kind catalog k hk same n oid =>
    have ha := Identity.same_iff.mp same
    have hcatalog : k.kind.catalog = kind.catalog := (congrArg Address.catalog ha).trans catalog.symm
    obtain ⟨first, hfirst⟩ := holder?_of_mem hk oid
    have hfa := hcons.number_holder hk oid hfirst
    rw [registered?_numbered rfl, ← hcatalog, hfirst, Option.bind_some, captured?_congr os (hfa.trans ha)]

theorem Restates.cases (h : Restates os d d') (hcons : Consistent os) : d = d' ∨
    d.edgeClass = d'.edgeClass ∧
      ∃ k, registered? os d.target = some k ∧ registered? os d'.target = some k := by
  cases h with
  | refl => exact .inl rfl
  | @captured o ho s t hs ht c =>
    obtain ⟨k, hk⟩ := captured?_of_mem ho rfl
    exact .inr ⟨rfl, k, (hs.registered hcons ho).trans hk, (ht.registered hcons ho).trans hk⟩

theorem Restates.outcome (h : Restates os d d') (hcons : Consistent os) (failed : List Kind)
    (i : Identity) : outcome os failed (i, d) = outcome os failed (i, d') := by
  rcases h.cases hcons with rfl | ⟨hclass, k, hk, hk'⟩
  · rfl
  · have hres := resolved?_eq_some_iff.mpr (.inl ⟨k, hk, rfl⟩)
    have hres' := resolved?_eq_some_iff.mpr (.inl ⟨k, hk', rfl⟩)
    rw [outcome_of_resolved hres, outcome_of_resolved hres', edgeClassOf, edgeClassOf, hclass]

theorem Restates.becomes (h : Restates os d d') (hcons : Consistent os) (hb : Becomes os o d' e) :
    Becomes os o d e := by
  rcases h.cases hcons with rfl | ⟨hclass, k, hk, hk'⟩
  · exact hb
  · obtain ⟨first, t, c, hfirst, hres, hs, hc, rfl⟩ := hb
    have hsame : resolved? os d.target = resolved? os d'.target := by
      rw [resolved?_eq_some_iff.mpr (.inl ⟨k, hk, rfl⟩), resolved?_eq_some_iff.mpr (.inl ⟨k, hk', rfl⟩)]
    exact ⟨first, t, c, hfirst, hsame.trans hres, hs, hclass ▸ hc, rfl⟩

/-- A property that overlooks references to captured objects does not tell
references in other words apart. -/
theorem filter_restates (hcons : Consistent os) (hp : Overlooks os p) (i : Identity)
    (h : List.Forall₂ (Restates os) ds ds') :
    ds.filter (fun d => p (i, d)) = ds'.filter fun d => p (i, d) := by
  induction h with
  | nil => rfl
  | cons hd _ ih =>
    rcases hd.cases hcons with rfl | ⟨-, k, hk, hk'⟩
    · rw [List.filter_cons, List.filter_cons, ih]
    · simpa [hp.captured (i, _) k hk, hp.captured (i, _) k hk'] using ih

-- ---------------------------------------------------------------------------
-- Objects
-- ---------------------------------------------------------------------------

namespace Restated

theorem bare (h : Restated os o o') : o.bare = o'.bare := by
  cases h
  rfl

theorem identity (h : Restated os o o') : o.identity = o'.identity := by
  cases h
  rfl

theorem alikeUnder (h : Restated os o o') (hcons : Consistent os) (hp : Overlooks os p) (ho : o ∈ os) :
    AlikeUnder p o o' := by
  refine ⟨h.bare, fun j _ => ?_⟩
  cases h with
  | given i payload oid h =>
    have hself : ∀ d : Dependency, d.target.same i = true → p (j, d) = false := by
      intro d hd
      obtain ⟨k, hk, -⟩ := registered?_captured (hcons.named _ ho) ho
      refine hp.captured (j, d) k ?_
      rw [registered?_congr os (Identity.same_iff.mp hd)]
      exact hk
    rw [make_filter hself, make_filter hself, mergeDependencies_filter (hp.points j),
      mergeDependencies_filter (hp.points j), filter_restates hcons hp j h]

/-- A reference of an object in other words is one of the object, unless it was
dropped as one to itself. -/
theorem reference (h : Restated os o o') (hd : d' ∈ o'.dependencies) : ∃ d, Restates os d d' ∧
    (d.target.address = o.identity.address ∨ ∃ k ∈ o.dependencies, k.point = d.point) := by
  cases h with
  | given i payload oid h =>
    obtain ⟨d, hdm, hr⟩ := forall₂_mem_right h (make_dependencies_subset _ _ _ _ hd)
    refine ⟨d, hr, or_iff_not_imp_left.mpr fun hne => ?_⟩
    exact List.mem_map.mp (Routine.mem_make_points.mpr ⟨List.mem_map_of_mem hdm, hne⟩)

end Restated

-- ---------------------------------------------------------------------------
-- Arrivals
-- ---------------------------------------------------------------------------

theorem denotes_bare : Denotes (os.map Object.bare) i t ↔ Denotes os i t := by
  constructor
  · rintro (⟨kind, catalog⟩ | ⟨kind, catalog, hk, same, oid⟩)
    · exact .name kind catalog
    · obtain ⟨k, hm, rfl⟩ := List.mem_map.mp hk
      exact .number (k := k) kind catalog hm same oid
  · rintro (⟨kind, catalog⟩ | ⟨kind, catalog, hk, same, oid⟩)
    · exact .name kind catalog
    · exact .number kind catalog (List.mem_map_of_mem hk) same oid

theorem restates_bare : Restates (os.map Object.bare) d d' ↔ Restates os d d' := by
  constructor
  · rintro (⟨d⟩ | ⟨ho, hs, ht, c⟩)
    · exact .refl d
    · obtain ⟨o, hm, rfl⟩ := List.mem_map.mp ho
      exact .captured (o := o) hm (denotes_bare.mp hs) (denotes_bare.mp ht) c
  · rintro (⟨d⟩ | ⟨ho, hs, ht, c⟩)
    · exact .refl d
    · exact .captured (List.mem_map_of_mem ho) (denotes_bare.mpr hs) (denotes_bare.mpr ht) c

theorem Restated.transfer (hbare : os.map Object.bare = os'.map Object.bare) (h : Restated os o o') :
    Restated os' o o' := by
  have heq : Restates os = Restates os' :=
    eq_of_bare (fun os => funext fun d => funext fun d' => propext restates_bare) hbare
  cases h with
  | given i payload oid h => exact .given i payload oid (heq ▸ h)

theorem Restates.symm (h : Restates os d d') : Restates os d' d := by
  cases h with
  | refl => exact .refl d
  | captured ho hs ht c => exact .captured ho ht hs c

theorem map_bare_of_restated (hall : List.Forall₂ (Restated os) xs ys) :
    xs.map Object.bare = ys.map Object.bare :=
  map_bare_congr (hall.imp fun _ _ => Restated.bare)

theorem restated_symm (hall : List.Forall₂ (Restated os) os os') :
    List.Forall₂ (Restated os') os' os := by
  refine hall.flip.imp fun o' o h => Restated.transfer (map_bare_of_restated hall) ?_
  cases h with
  | given i payload oid h => exact .given i payload oid (h.flip.imp fun _ _ => Restates.symm)

section
variable (hcons : Consistent os) (hall : List.Forall₂ (Restated os) os os')
include hcons hall

theorem outcomes_restated (h : ∃ found, (orderedReferences os).mapM (outcome os failed) = .ok found) :
    ∃ found, (orderedReferences os').mapM (outcome os' failed) = .ok found := by
  have hout : outcome os failed = outcome os' failed :=
    eq_of_bare (f := fun os => outcome os failed) (fun os => funext (outcome_bare os failed))
      (map_bare_of_restated hall)
  rw [outcomes_isOk_iff] at h ⊢
  intro o' ho' d' hd'
  obtain ⟨o, ho, hr⟩ := forall₂_mem_right hall ho'
  obtain ⟨d, hd, hself | ⟨k, hk, hp⟩⟩ := hr.reference hd'
  · -- A reference of an object to itself comes to nothing.
    obtain ⟨k, hk, ha⟩ := registered?_captured (hcons.named o ho) ho
    have hres : resolved? os d.target = some k.identity := by
      rw [resolved?_congr os hself]
      exact resolved?_eq_some_iff.mpr (.inl ⟨k, hk, rfl⟩)
    rw [← hout, ← hd.outcome hcons, ← hr.identity, outcome_of_resolved hres,
      if_pos (Identity.same_iff.mpr ha)]
    rfl
  · rw [← hout, ← hd.outcome hcons, ← hr.identity, ← outcome_isOk_congr os failed rfl hp]
    exact h o ho k hk

theorem Declares.restated (h : Declares os' e) : Declares os e := by
  obtain ⟨o', ho', d', hd', hb⟩ := h
  obtain ⟨o, ho, hr⟩ := forall₂_mem_right hall ho'
  rw [← becomes_bare, ← map_bare_of_restated hall, becomes_bare] at hb
  obtain ⟨d, hd, hcase⟩ := hr.reference hd'
  have hbd : Becomes os o d e :=
    (hd.becomes hcons hb).congr (congrArg Identity.address hr.identity.symm) rfl
  rcases hcase with hself | ⟨k, hk, hp⟩
  · exact absurd hself (hbd.target_ne (hcons.named o ho) ho)
  · exact ⟨o, ho, k, hk, hbd.congr rfl hp.symm⟩

end

-- ---------------------------------------------------------------------------
-- Graphs
-- ---------------------------------------------------------------------------

structure Graph.Reworded (g g' : Graph) : Prop where
  nodes : g.nodes = g'.nodes
  objects : g.objects.map Object.bare = g'.objects.map Object.bare
  edges : g.edges.Perm g'.edges
  sortedEdges : g.sortedEdges = g'.sortedEdges
  diagnostics : g.diagnostics = g'.diagnostics

theorem reworded_assembled (hcons : Consistent os) (hall : List.Forall₂ (Restated os) os os')
    {found found' : List (Option Edge)}
    (h : (orderedReferences os).mapM (outcome os failed) = .ok found)
    (h' : (orderedReferences os').mapM (outcome os' failed) = .ok found') :
    (assembled os (orderedReferences os) found).Reworded
      (assembled os' (orderedReferences os') found') := by
  have hbare := map_bare_of_restated hall
  have hcons' := (consistent_bare hbare).mp hcons
  have halike : ∀ {p}, Overlooks os p → List.Forall₂ (AlikeUnder p) os os' := fun hp =>
    forall₂_imp_mem (fun _ ho _ _ hr => hr.alikeUnder hcons hp ho) hall
  have hobjects : (assembled os (orderedReferences os) found).objects.map Object.bare =
      (assembled os' (orderedReferences os') found').objects.map Object.bare := by
    simp only [assembled, List.map_append, ← firsts_bare, hbare,
      newSchemas_congr hbare (halike (overlooks_newSchema os))]
  have hdeclares : ∀ e, Declares os e ↔ Declares os' e := fun e =>
    ⟨fun hd => hd.restated hcons' (restated_symm hall), fun hd => hd.restated hcons hall⟩
  have hexact := exact_assembled hcons.named h
  have hexact' := exact_assembled hcons'.named h'
  have hedges : (assembled os (orderedReferences os) found).edges.Perm
      (assembled os' (orderedReferences os') found').edges := by
    refine (List.perm_ext_iff_of_nodup (hexact.arcs_nodup.of_map _) (hexact'.arcs_nodup.of_map _)).mpr
      fun e => ?_
    simp only [hexact.edges, hexact'.edges, hdeclares]
  have hnodes := congrArg (List.map (·.identity)) hobjects
  rw [List.map_map, List.map_map] at hnodes
  exact ⟨hnodes, hobjects, hedges, Graph.sortedEdges_congr (hexact.digraph hcons.named) hedges,
    diagnostics_congr hbare (halike (overlooks_unresolved os))⟩

theorem build_restated {failedKinds : List Value}
    (hall : List.Forall₂ (Restated (arrivals batches)) (arrivals batches) (arrivals batches'))
    (hg : (Graph.build batches failedKinds).result = .ok g) :
    ∃ g', (Graph.build batches' failedKinds).result = .ok g' ∧ g.Reworded g' := by
  obtain ⟨failed, hfailed, hcons, found, hfound, rfl⟩ := build_ok.mp hg
  obtain ⟨found', hfound'⟩ := outcomes_restated hcons hall ⟨found, hfound⟩
  have hcons' := (consistent_bare (map_bare_of_restated hall)).mp hcons
  exact ⟨_, build_ok.mpr ⟨failed, hfailed, hcons', found', hfound', rfl⟩,
    reworded_assembled hcons hall hfound hfound'⟩

end CatalogPlan
