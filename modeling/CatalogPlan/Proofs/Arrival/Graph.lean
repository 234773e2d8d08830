import CatalogPlan.Proofs.Arrival.Snapshot
import CatalogPlan.Proofs.Canonical

/-!
# Graphs of snapshots that say the same

Two snapshots that tell of the same objects have the same graph: the same objects,
edges and diagnostics.
-/

namespace CatalogPlan

def Diagnostic.place (d : Diagnostic) : Address × Address × String :=
  (d.source.address, d.target.address, d.reason)

structure SameGraph (g g' : Graph) : Prop where
  nodes : g.nodes.Perm g'.nodes
  objects : ∀ o ∈ g.objects, ∃ k ∈ g'.objects, o.Alike k
  edges : g.edges.Perm g'.edges
  diagnostics : (g.diagnostics.map Diagnostic.place).Perm (g'.diagnostics.map Diagnostic.place)

/-- Two graphs with the same edges and diagnostics, and with objects that are read
alike, in whatever order. -/
structure LikeGraph (g g' : Graph) : Prop where
  nodes : g.nodes.Perm g'.nodes
  objects : ∀ o ∈ g.objects, ∃ k ∈ g'.objects, o.Like k
  edges : g.edges.Perm g'.edges
  diagnostics : (g.diagnostics.map Diagnostic.place).Perm (g'.diagnostics.map Diagnostic.place)

theorem Exact.mem_nodes (h : Exact os g) : i ∈ g.nodes ↔
    (∃ o, captured? os o.identity = some o ∧ o.identity = i) ∨ NeedsSchema os i :=
  mem_nodes_of_objects h.objects

-- ---------------------------------------------------------------------------
-- Places of references
-- ---------------------------------------------------------------------------

def referencePlace (r : Identity × Dependency) : Address × Address × Option EdgeClass :=
  (r.1.address, r.2.point)

def Address.sortKey (a : Address) : String × String :=
  (a.key.text, a.catalog.name)

def placeKey (p : Address × Address × Option EdgeClass) :
    (String × String) × (String × String) × String :=
  (p.1.sortKey, p.2.1.sortKey, (p.2.2.map (·.name)).getD "")

def referenceKeyLe : (String × String) × (String × String) × String →
    (String × String) × (String × String) × String → Bool :=
  lexLe (fun a b => sortKeyLe a b && a != b) fun a b => dependencyKeyLe (a.1, a.2) (b.1, b.2)

theorem linearLe_referenceKey : LinearLe referenceKeyLe :=
  .lex linearLe_sortKey linearLe_dependencyKey fun _ _ => rfl

theorem EdgeClass.name_inj {c d : Option EdgeClass}
    (h : (c.map (·.name)).getD "" = (d.map (·.name)).getD "") : c = d := by
  revert h
  cases c with
  | none => cases d with
    | none => exact fun _ => rfl
    | some d => cases d <;> decide
  | some c => cases d with
    | none => cases c <;> decide
    | some d => cases c <;> cases d <;> decide

namespace Unmet

variable {refs : List (Identity × Dependency)}

theorem places_nodup (h : Unmet os refs) : (refs.map referencePlace).Nodup := by
  refine List.pairwise_map.mpr (h.distinct.imp fun {a b} hab heq => ?_)
  obtain ⟨hi, hp⟩ := Prod.mk.inj heq
  rw [sameReference_iff.mpr ⟨hi, hp⟩] at hab
  cases hab

theorem mem_places (h : Unmet os refs) : p ∈ refs.map referencePlace ↔
    ∃ o ∈ os, ∃ d ∈ o.dependencies, resolved? os d.target = none ∧
      (o.identity.address, d.point) = p := by
  constructor
  · intro hp
    obtain ⟨r, hr, rfl⟩ := List.mem_map.mp hp
    obtain ⟨hnone, o, ho, hs, hd⟩ := h.sound r hr
    exact ⟨o, ho, r.2, hd, hnone, by rw [Identity.same_iff.mp hs]; rfl⟩
  · rintro ⟨o, ho, d, hd, hnone, rfl⟩
    obtain ⟨r, hr, hs⟩ := h.complete o ho d hd hnone
    obtain ⟨hi, hp⟩ := sameReference_iff.mp hs
    exact List.mem_map.mpr ⟨r, hr, Prod.ext hi hp⟩

theorem places_sorted (h : Unmet os refs) : (refs.map referencePlace).Pairwise fun p q =>
    referenceKeyLe (placeKey p) (placeKey q) = true :=
  List.pairwise_map.mpr h.sorted

/-- The key of a reference between canonical identities tells it apart. -/
theorem place_inj (h : Unmet os refs) (hcanon : ∀ o ∈ os, o.Canonical) :
    ∀ p ∈ refs.map referencePlace, ∀ q ∈ refs.map referencePlace,
      placeKey p = placeKey q → p = q := by
  intro p hp q hq hk
  obtain ⟨o, ho, d, hd, -, rfl⟩ := h.mem_places.mp hp
  obtain ⟨o', ho', d', hd', -, rfl⟩ := h.mem_places.mp hq
  obtain ⟨hsource, hrest⟩ := Prod.mk.inj hk
  obtain ⟨htarget, hclass⟩ := Prod.mk.inj hrest
  have hs := (hcanon o ho).identity.address_of_sortKey (hcanon o' ho').identity hsource
  have ht := ((hcanon o ho).target d hd).address_of_sortKey ((hcanon o' ho').target d' hd') htarget
  exact Prod.ext hs (Prod.ext ht (EdgeClass.name_inj hclass))

end Unmet

theorem diagnostics_places (refs : List (Identity × Dependency)) :
    (refs.map fun r => (⟨r.1, r.2.target, Graph.outOfScope⟩ : Diagnostic)).map Diagnostic.place =
      (refs.map referencePlace).map fun p => (p.1, p.2.1, Graph.outOfScope) := by
  rw [List.map_map, List.map_map]
  rfl

namespace Retold

theorem reference (h : Retold os os') (ho : o ∈ os) (hd : d ∈ o.dependencies) :
    ∃ k ∈ os', k.identity.address = o.identity.address ∧
      ∃ d' ∈ k.dependencies, d'.point = d.point := by
  have href : Refers os o.identity d :=
    ⟨o, ho, Identity.same_refl _, d, hd, Dependency.same_iff.mpr rfl⟩
  obtain ⟨k, hk, ha, d', hd', hs⟩ := (h.refers o.identity d).mp href
  exact ⟨k, hk, Identity.same_iff.mp ha, d', hd', Dependency.same_iff.mp hs⟩

end Retold

theorem classOr_like {o k : Object} (ha : o.Like k) (c : Option EdgeClass) (t : Identity) :
    (c.elim (defaultEdgeClass o t) .ok).toOption = (c.elim (defaultEdgeClass k t) .ok).toOption := by
  cases c with
  | none => exact defaultEdgeClass_like ha t
  | some c => rfl

namespace Retold

section
variable (h : Retold os os')
include h

-- ---------------------------------------------------------------------------
-- Outcomes
-- ---------------------------------------------------------------------------

theorem outcome_alike (failed : List Kind) (hi : r.1 = r'.1) (hp : r.2.point = r'.2.point)
    (hfirst : captured? os r.1 = some first) :
    (outcome os failed r).toOption = (outcome os' failed r').toOption := by
  obtain ⟨htarget, hclass⟩ := Prod.mk.inj hp
  have hcat : r.2.target.kind.catalog = r'.2.target.kind.catalog := congrArg Address.catalog htarget
  have hres : resolved? os r.2.target = resolved? os' r'.2.target := by
    rw [h.resolved?_eq, resolved?_congr os' htarget]
  obtain ⟨k, hk, ha⟩ := h.captured?_like hfirst
  cases ht : resolved? os r.2.target with
  | none =>
    unfold outcome
    rw [← hres, ht, hcat]
    simp only
    split <;> rfl
  | some t =>
    rw [outcome_of_resolved ht, outcome_of_resolved (hres ▸ ht), ← hi]
    split
    · rfl
    · rw [edgeClassOf_captured hfirst, edgeClassOf_captured hk, hclass, toOption_map, toOption_map,
        classOr_like ha]

theorem outcomes_isOk {failed : List Kind}
    (hall : ∀ r ∈ orderedReferences os, ∃ e, outcome os failed r = .ok e) :
    ∀ r ∈ orderedReferences os', ∃ e, outcome os' failed r = .ok e := by
  intro r hr
  obtain ⟨k, hk, hka, hd, first, hfirst, hid⟩ := arrival_of_reference hr
  obtain ⟨o, ho, hoa, d, hdm, hp⟩ := h.symm.reference hk hd
  obtain ⟨first', d', hfirst', hr', hp'⟩ := reference_of_arrival ho hdm
  have hself : captured? os first'.identity = some first' := by
    rwa [captured?_congr os (captured?_mem hfirst').2]
  obtain ⟨k', hk', hlike⟩ := h.captured?_like hfirst'
  have hi : first'.identity = r.1 := by
    rw [captured?_congr os' hoa, hfirst] at hk'
    rw [hlike.identity, ← Option.some.inj hk', hid]
  obtain ⟨e, he⟩ := hall _ hr'
  refine ⟨e, toOption_eq_some.mp ?_⟩
  have hsame := h.outcome_alike (r := (first'.identity, d')) failed hi (hp'.trans hp) hself
  rw [← hsame]
  exact toOption_eq_some.mpr he

theorem becomes_alike (hb : Becomes os o d e) (ha : k.identity.address = o.identity.address)
    (hp : d'.point = d.point) : Becomes os' k d' e := by
  obtain ⟨first, t, c, hfirst, hres, hs, hclass, rfl⟩ := hb
  obtain ⟨first', hfirst', hlike⟩ := h.captured?_like hfirst
  have hclass' : d.edgeClass.elim (defaultEdgeClass first' t) .ok = .ok c := by
    rw [← toOption_eq_some, ← classOr_like hlike, toOption_eq_some, hclass]
  have hb' : Becomes os' o d (Edge.orient ⟨first.identity, t, c⟩) :=
    ⟨first', t, c, hfirst', h.resolved?_some hres, hs, hclass', by rw [hlike.identity]⟩
  exact hb'.congr ha.symm hp.symm

theorem declares (hd : Declares os e) : Declares os' e := by
  obtain ⟨o, ho, d, hd, hb⟩ := hd
  obtain ⟨k, hk, ha, d', hd', hp⟩ := h.reference ho hd
  exact ⟨k, hk, d', hd', h.becomes_alike hb ha hp⟩

theorem needsSchema (hs : NeedsSchema os s) : NeedsSchema os' s := by
  obtain ⟨hnew, o, ho, d, hd, rfl⟩ := hs
  obtain ⟨k, hk, -, d', hd', hp⟩ := h.reference ho hd
  refine ⟨h.isNewSchema_eq _ ▸ hnew, k, hk, d', hd', ?_⟩
  exact (Identity.eq_of_namespace (congrArg Prod.fst hp).symm (isNewSchema_iff.mp hnew).2.1).symm

-- ---------------------------------------------------------------------------
-- Graphs
-- ---------------------------------------------------------------------------

theorem build_isOk {b b' : Batches} {failedKinds : List Value} (hb : arrivals b = os)
    (hb' : arrivals b' = os') (hcons : Consistent os')
    (hg : (Graph.build b failedKinds).result = .ok g) :
    ∃ g', (Graph.build b' failedKinds).result = .ok g' := by
  subst hb hb'
  obtain ⟨failed, hfailed, -, found, hfound, rfl⟩ := build_ok.mp hg
  have hall : ∀ r ∈ orderedReferences (arrivals b),
      ∃ e, outcome (arrivals b) failed.eraseDups r = .ok e := mapM_isOk.mp ⟨found, hfound⟩
  obtain ⟨found', hfound'⟩ := mapM_isOk.mpr (h.outcomes_isOk hall)
  exact ⟨_, build_ok.mpr ⟨failed, hfailed, hcons, found', hfound', rfl⟩⟩

theorem mem_edges (hg : Exact os g) (hg' : Exact os' g') (he : e ∈ g.edges) : e ∈ g'.edges := by
  obtain ⟨hd, hmax⟩ := (hg.edges e).mp he
  refine (hg'.edges e).mpr ⟨h.declares hd, fun k hk => ?_⟩
  exact hmax k (h.symm.declares hk)

theorem mem_nodes (hg : Exact os g) (hg' : Exact os' g') (hi : i ∈ g.nodes) : i ∈ g'.nodes := by
  refine hg'.mem_nodes.mpr ?_
  rcases hg.mem_nodes.mp hi with ⟨o, ho, rfl⟩ | hs
  · obtain ⟨k, hk, ha⟩ := h.captured?_like ho
    exact .inl ⟨k, ha.identity ▸ hk, ha.identity.symm⟩
  · exact .inr (h.needsSchema hs)

theorem mem_objects (hg : Exact os g) (hg' : Exact os' g') (ho : o ∈ g.objects) :
    ∃ k ∈ g'.objects, o.Like k := by
  rcases (hg.objects o).mp ho with hcap | ⟨s, hs, rfl⟩
  · obtain ⟨k, hk, ha⟩ := h.captured?_like hcap
    exact ⟨k, (hg'.objects k).mpr (.inl (ha.identity ▸ hk)), ha⟩
  · exact ⟨_, (hg'.objects _).mpr (.inr ⟨s, h.needsSchema hs, rfl⟩), rfl, .inl rfl⟩

-- ---------------------------------------------------------------------------
-- Diagnostics
-- ---------------------------------------------------------------------------

theorem places_perm (hu : Unmet os refs) (hu' : Unmet os' refs') :
    (refs.map referencePlace).Perm (refs'.map referencePlace) := by
  refine (List.perm_ext_iff_of_nodup hu.places_nodup hu'.places_nodup).mpr fun p => ?_
  rw [hu.mem_places, hu'.mem_places]
  constructor
  · rintro ⟨o, ho, d, hd, hnone, rfl⟩
    obtain ⟨k, hk, ha, d', hd', hp⟩ := h.reference ho hd
    refine ⟨k, hk, d', hd', ?_, by rw [ha, hp]⟩
    rw [resolved?_congr os' (congrArg Prod.fst hp), ← h.resolved?_eq, hnone]
  · rintro ⟨k, hk, d, hd, hnone, rfl⟩
    obtain ⟨o, ho, ha, d', hd', hp⟩ := h.symm.reference hk hd
    refine ⟨o, ho, d', hd', ?_, by rw [ha, hp]⟩
    rw [h.resolved?_eq, resolved?_congr os' (congrArg Prod.fst hp), hnone]

theorem likeGraph (hg : Exact os g) (hg' : Exact os' g') : LikeGraph g g' := by
  refine ⟨?_, fun o ho => h.mem_objects hg hg' ho, ?_, ?_⟩
  · exact (List.perm_ext_iff_of_nodup (hg.nodes_nodup.of_map _) (hg'.nodes_nodup.of_map _)).mpr
      fun i => ⟨h.mem_nodes hg hg', h.symm.mem_nodes hg' hg⟩
  · exact (List.perm_ext_iff_of_nodup (hg.arcs_nodup.of_map _) (hg'.arcs_nodup.of_map _)).mpr
      fun e => ⟨h.mem_edges hg hg', h.symm.mem_edges hg' hg⟩
  · obtain ⟨refs, hu, hd⟩ := hg.diagnostics
    obtain ⟨refs', hu', hd'⟩ := hg'.diagnostics
    rw [hd, hd', diagnostics_places, diagnostics_places]
    exact (h.places_perm hu hu').map _

theorem diagnostics_eq (hg : Exact os g) (hg' : Exact os' g') (hcanon : ∀ o ∈ os, o.Canonical) :
    g.diagnostics.map Diagnostic.place = g'.diagnostics.map Diagnostic.place := by
  obtain ⟨refs, hu, hd⟩ := hg.diagnostics
  obtain ⟨refs', hu', hd'⟩ := hg'.diagnostics
  have hperm := h.places_perm hu hu'
  have heq : refs.map referencePlace = refs'.map referencePlace := by
    -- Equal lists of keys, in order, where no two references have one key.
    refine List.Perm.eq_of_pairwise ?_ hu.places_sorted hu'.places_sorted hperm
    intro p q hp hq hpq hqp
    exact hu.place_inj hcanon p hp q (hperm.mem_iff.mpr hq)
      (linearLe_referenceKey.antisymm _ _ hpq hqp)
  rw [hd, hd', diagnostics_places, diagnostics_places, heq]

end

end Retold

-- ---------------------------------------------------------------------------
-- Snapshots that say the same
-- ---------------------------------------------------------------------------

namespace SameSnapshot

variable (h : SameSnapshot os os') (hc : Coherent os)
include h hc

theorem sameGraph (hg : Exact os g) (hg' : Exact os' g') : SameGraph g g' := by
  have hlike := (h.retold hc).likeGraph hg hg'
  refine ⟨hlike.nodes, fun o ho => ?_, hlike.edges, hlike.diagnostics⟩
  obtain ⟨k, hk, hok⟩ := hlike.objects o ho
  refine ⟨k, hk, hok.alike ?_⟩
  rcases (hg.objects o).mp ho with hcap | ⟨s, -, rfl⟩
  · exact h.comparable.refl o (List.mem_append_left _ (captured?_mem hcap).1)
  · rfl

theorem diagnostics_eq (hg : Exact os g) (hg' : Exact os' g') (hcanon : ∀ o ∈ os, o.Canonical) :
    g.diagnostics.map Diagnostic.place = g'.diagnostics.map Diagnostic.place :=
  (h.retold hc).diagnostics_eq hg hg' hcanon

end SameSnapshot

end CatalogPlan
