import CatalogPlan.Proofs.Arrival.Order
import CatalogPlan.Proofs.Stuck

/-!
# What sort keys tell apart

Sort keys are texts. Among identities that readers report they tell every object from
every other one, numbered or named, so in a graph of such objects sorting leaves nothing
to the order in which objects and edges were added, and the queue of emission never comes
down to comparing two objects. The graphs that are built have names only, which is enough.
-/

namespace CatalogPlan

def Edge.KeyLt (e d : Edge) : Prop :=
  edgeKeyLe e.sortKey d.sortKey = true ∧ e.sortKey ≠ d.sortKey

structure Keyed (nodes : List Identity) (edges : List Edge) : Prop extends Simple nodes edges where
  address_of_sortKey : ∀ i ∈ nodes, ∀ j ∈ nodes, i.sortKey = j.sortKey → i.address = j.address

theorem Simple.keyed (h : Simple nodes edges)
    (hnormal : ∀ i ∈ nodes, ∃ raw : RawIdentity, raw.normalize = .ok i) : Keyed nodes edges := by
  refine ⟨h, fun i hi j hj => ?_⟩
  obtain ⟨raw, hraw⟩ := hnormal i hi
  obtain ⟨raw', hraw'⟩ := hnormal j hj
  exact (normalize_canonical hraw).address_of_sortKey (normalize_canonical hraw')

theorem Digraph.keyed (h : Digraph nodes edges) : Keyed nodes edges :=
  ⟨h.simple, fun i hi j hj => Identity.address_of_sortKey (h.named i hi) (h.named j hj)⟩

namespace Keyed

variable {nodes : List Identity} {edges : List Edge} (h : Keyed nodes edges)
include h

theorem sortKeys_nodup : (nodes.map Identity.sortKey).Nodup :=
  (h.nodes_nodup.of_map _).map_on fun i hi j hj hkey =>
    List.inj_on_of_nodup_map h.nodes_nodup hi hj (h.address_of_sortKey i hi j hj hkey)

theorem ranks_nodup : (nodes.map Identity.creationRank).Nodup := by
  have hkeys : ((nodes.map Identity.creationRank).map Prod.snd).Nodup := by
    rw [List.map_map]
    exact h.sortKeys_nodup
  exact hkeys.of_map _

/-- The ends of edges may go by another name than the objects do. -/
theorem end_address {i j : Identity} (hi : i.address ∈ nodes.map Identity.address)
    (hj : j.address ∈ nodes.map Identity.address) (hkey : i.sortKey = j.sortKey) :
    i.address = j.address := by
  obtain ⟨k, hk, hki⟩ := List.mem_map.mp hi
  obtain ⟨l, hl, hlj⟩ := List.mem_map.mp hj
  rw [← hki, ← hlj]
  refine h.address_of_sortKey k hk l hl ?_
  rw [Identity.sortKey_congr hki, Identity.sortKey_congr hlj, hkey]

theorem eq_of_edgeKey : ∀ e ∈ edges, ∀ d ∈ edges, e.sortKey = d.sortKey → e = d := by
  intro e he d hd hkey
  obtain ⟨hsource, htarget⟩ := Prod.mk.inj hkey
  obtain ⟨hes, het⟩ := h.ends_mem e he
  obtain ⟨hds, hdt⟩ := h.ends_mem d hd
  refine List.inj_on_of_nodup_map h.arcs_nodup he hd ?_
  exact Prod.ext (h.end_address hes hds hsource) (h.end_address het hdt htarget)

theorem sortEdges_increasing : (sortEdges edges).Pairwise Edge.KeyLt :=
  sortOn_strict linearLe_edgeKey h.eq_of_edgeKey (h.arcs_nodup.of_map _)

theorem sortEdges_perm (hp : edges'.Perm edges) : sortEdges edges' = sortEdges edges :=
  (sortOn_congr linearLe_edgeKey h.eq_of_edgeKey hp.symm).symm

theorem of_arcs (ha : edges'.map Edge.arc = edges.map Edge.arc) : Keyed nodes edges' := by
  refine ⟨⟨h.nodes_nodup, ha ▸ h.arcs_nodup, fun e he => ?_⟩, h.address_of_sortKey⟩
  obtain ⟨d, hd, harc⟩ := List.mem_map.mp (ha ▸ List.mem_map_of_mem he)
  obtain ⟨hsource, htarget⟩ := Prod.mk.inj harc
  exact hsource ▸ htarget ▸ h.ends_mem d hd

end Keyed

-- ---------------------------------------------------------------------------
-- Graphs and views
-- ---------------------------------------------------------------------------

/-- Keys tell objects and edges of a graph apart, so that its list of edges does not
depend on how they were added. -/
structure Graph.ToldApart (g : Graph) : Prop where
  sortKeys : (g.nodes.map Identity.sortKey).Nodup
  ranks : (g.nodes.map Identity.creationRank).Nodup
  increasing : g.sortedEdges.Pairwise Edge.KeyLt
  stable : ∀ h : Graph, h.edges.Perm g.edges → h.sortedEdges = g.sortedEdges

/-- The same of a view. Objects that wait together have different ranks, so that the queue
compares ranks only and never the objects, which have no order. -/
structure View.ToldApart (v : View) : Prop where
  sortKeys : (v.nodes.map Identity.sortKey).Nodup
  ranks : (v.nodes.map Identity.creationRank).Nodup
  increasing : v.retainedEdges.Pairwise Edge.KeyLt
  stable : ∀ w : View, w.nodes.Perm v.nodes → w.retained.Perm v.retained →
    w.retainedEdges = v.retainedEdges
  queues : ∀ queue ∈ v.queues, (queue.map Identity.creationRank).Nodup

theorem Keyed.graph {g : Graph} (h : Keyed g.nodes g.edges) : g.ToldApart :=
  ⟨h.sortKeys_nodup, h.ranks_nodup, h.sortEdges_increasing, fun _ => h.sortEdges_perm⟩

namespace View

variable {v w : View}

theorem edges_arcs (v : View) : v.edges.map Edge.arc = v.retained.map Edge.arc := by
  rw [edges, List.map_map]
  refine List.map_congr_left fun e _ => ?_
  cases hf : v.nodes.find? (·.same e.source) with
  | none => simp [Edge.arc, hf]
  | some i =>
    have ha : i.address = e.source.address := Identity.same_iff.mp (by simpa using List.find?_some hf)
    simp [Edge.arc, hf, ha]

theorem edges_perm (hv : (v.nodes.map Identity.address).Nodup) (hn : w.nodes.Perm v.nodes)
    (he : w.retained.Perm v.retained) : w.edges.Perm v.edges := by
  have hfind : ∀ i : Identity, w.nodes.find? (·.same i) = v.nodes.find? (·.same i) := by
    intro i
    refine Option.ext fun j => ?_
    rw [Identity.find?_same_iff hv, Identity.find?_same_iff ((hn.map _).symm.nodup hv), hn.mem_iff]
  simp only [edges, hfind]
  exact he.map _

theorem toldApart (h : Keyed v.nodes v.retained) : v.ToldApart := by
  have hedges : Keyed v.nodes v.edges := h.of_arcs v.edges_arcs
  refine ⟨h.sortKeys_nodup, h.ranks_nodup, hedges.sortEdges_increasing, fun w hn he => ?_, ?_⟩
  · exact hedges.sortEdges_perm (edges_perm h.nodes_nodup hn he)
  · exact Emission.untied_of_sortKeys _ _ _ h.nodes_nodup h.address_of_sortKey

end View

theorem Graph.breakCycles_perm {g h : Graph} (hd : Digraph g.nodes g.edges)
    (hn : g.nodes.Perm h.nodes) (he : g.edges.Perm h.edges) (hv : g.breakCycles.result = .ok v) :
    ∃ w, h.breakCycles.result = .ok w ∧ w.retainedEdges = v.retainedEdges := by
  obtain ⟨hfixed, rfl⟩ := (Graph.breakCycles_ok hd).mp hv
  have hview := View.toldApart (Graph.brokenView_digraph hd).keyed
  refine ⟨h.brokenView, (Graph.breakCycles_ok (hd.perm hn he)).mpr ⟨?_, rfl⟩, ?_⟩
  · exact (acyclic_congr (he.filter _)).mp hfixed
  · exact hview.stable _ hn.symm (Graph.retained_perm hd hn he).symm

/-- Sort keys of reported identities are equal just for equal objects, and so are creation
ranks that are equal. Where a graph or view has such identities, all its sort keys and all
its ranks differ, its edges are listed in strictly increasing order however they were added,
and no two objects that wait together have one rank. All of that holds of what is built
and of what cycle breaking leaves of it, and the arrivals may come in any order. -/
theorem sortKeys_faithful :
    (∀ (raw raw' : RawIdentity) i j, raw.normalize = .ok i → raw'.normalize = .ok j →
      (i.sortKey = j.sortKey ↔ i.same j = true) ∧
      (i.creationRank = j.creationRank → i.same j = true)) ∧
    (∀ g : Graph, Simple g.nodes g.edges →
      (∀ i ∈ g.nodes, ∃ raw : RawIdentity, raw.normalize = .ok i) → g.ToldApart) ∧
    (∀ v : View, Simple v.nodes v.retained →
      (∀ i ∈ v.nodes, ∃ raw : RawIdentity, raw.normalize = .ok i) → v.ToldApart) ∧
    (∀ batches failedKinds g, (Graph.build batches failedKinds).result = .ok g →
      g.ToldApart ∧ ∀ v, g.breakCycles.result = .ok v → v.ToldApart) ∧
    ∀ batches batches' failedKinds g, PartlyComparable (arrivals batches) →
      (arrivals batches).Perm (arrivals batches') →
      (Graph.build batches failedKinds).result = .ok g →
      ∃ h, (Graph.build batches' failedKinds).result = .ok h ∧ h.sortedEdges = g.sortedEdges ∧
        ∀ v, g.breakCycles.result = .ok v →
          ∃ w, h.breakCycles.result = .ok w ∧ w.retainedEdges = v.retainedEdges := by
  refine ⟨fun raw raw' i j hi hj => ?_, fun g hg hnormal => (hg.keyed hnormal).graph,
    fun v hv hnormal => View.toldApart (hv.keyed hnormal), fun batches failedKinds g hg => ?_,
    fun batches batches' failedKinds g hc hp hg => ?_⟩
  · have haddress : i.sortKey = j.sortKey → i.address = j.address :=
      (normalize_canonical hi).address_of_sortKey (normalize_canonical hj)
    simp only [Identity.same_iff]
    exact ⟨⟨haddress, Identity.sortKey_congr⟩,
      fun hrank => haddress (Identity.sortKey_of_creationRank hrank)⟩
  · have hd := build_digraph hg
    refine ⟨hd.keyed.graph, fun v hv => View.toldApart ?_⟩
    exact (Graph.breakCycles_view hd hv).2.1.keyed
  · obtain ⟨hcons, hexact⟩ := build_consistent_exact hg
    have hretold := Retold.of_perm hc hcons hp
    obtain ⟨h, hh⟩ := hretold.build_isOk rfl rfl ((consistent_perm hc hp).mp hcons) hg
    have hlike := hretold.likeGraph hexact (build_consistent_exact hh).2
    have hd := build_digraph hg
    refine ⟨h, hh, (Graph.sortedEdges_congr hd hlike.edges).symm, fun v hv => ?_⟩
    exact Graph.breakCycles_perm hd hlike.nodes hlike.edges hv

theorem sortKeys_faithful_shop :
    (∃ i j, RawIdentity.normalize ⟨.known .table, .int 5, .text "", .text ""⟩ = .ok i ∧
      RawIdentity.normalize ⟨.known .table, .null, .text "", .text "\"5\""⟩ = .ok j ∧
      i.sortKey ≠ j.sortKey ∧ i.creationRank ≠ j.creationRank) ∧
    looped.ToldApart ∧
    ∃ g v h w, (Graph.build shop []).result = .ok g ∧ g.ToldApart ∧
      g.breakCycles.result = .ok v ∧ v.ToldApart ∧
      (Graph.build shop.reverse []).result = .ok h ∧ h.sortedEdges = g.sortedEdges ∧
      h.breakCycles.result = .ok w ∧ w.retainedEdges = v.retainedEdges := by
  obtain ⟨hkeys, -, hviews, hbuilt, hperm⟩ := sortKeys_faithful
  refine ⟨⟨⟨.table, .oid 5⟩, ⟨.table, .name "\"5\""⟩, ?_⟩, hviews looped ?_ fun i hi => ?_, ?_⟩
  · have hnumber : RawIdentity.normalize ⟨.known .table, .int 5, .text "", .text ""⟩ =
        .ok ⟨.table, .oid 5⟩ := toOption_eq_some.mp (by decide +kernel)
    have hname : RawIdentity.normalize ⟨.known .table, .null, .text "", .text "\"5\""⟩ =
        .ok ⟨.table, .name "\"5\""⟩ := toOption_eq_some.mp (by decide +kernel)
    obtain ⟨hsort, hrank⟩ := hkeys _ _ _ _ hnumber hname
    exact ⟨hnumber, hname, fun h => absurd (hsort.mp h) (by decide),
      fun h => absurd (hrank h) (by decide)⟩
  · exact ⟨by decide, by decide, by decide⟩
  · have hread : ∀ i ∈ looped.nodes, (RawIdentity.normalize
        ⟨.known i.kind, .null, .text "", .text i.key.text⟩).toOption = some i := by decide +kernel
    exact ⟨_, toOption_eq_some.mp (hread i hi)⟩
  · obtain ⟨v, hrun⟩ : ∃ v, (Graph.build shop [] >>= Graph.breakCycles).result = .ok v :=
      isOk_iff.mp (by decide)
    obtain ⟨g, hg, hv⟩ := Traced.bind_ok.mp hrun
    obtain ⟨h, hh, hedges, hbroken⟩ := hperm shop shop.reverse [] g
      ⟨by decide, by decide⟩ List.perm_append_comm hg
    obtain ⟨w, hw, hretained⟩ := hbroken v hv
    obtain ⟨htold, hview⟩ := hbuilt shop [] g hg
    exact ⟨g, v, h, w, hg, htold, hv, hview v hv, hh, hedges, hw, hretained⟩

end CatalogPlan
