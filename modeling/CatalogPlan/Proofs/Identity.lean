import CatalogPlan.Acyclic
import CatalogPlan.Proofs.Reach
import CatalogPlan.Proofs.Sorting

/-!
# Identities and the edges between them

Two identities are the same object when their addresses agree. Among named
identities the sort key tells objects apart, and so does the creation rank.
-/

namespace CatalogPlan

namespace Identity

theorem same_iff {a b : Identity} : a.same b = true ↔ a.address = b.address := by
  simp [same]

theorem same_eq_false {a b : Identity} : a.same b = false ↔ a.address ≠ b.address := by
  rw [← Bool.not_eq_true, same_iff]

@[simp] theorem same_refl (a : Identity) : a.same a = true :=
  same_iff.mpr rfl

theorem same_comm (a b : Identity) : a.same b = b.same a := by
  rw [Bool.eq_iff_iff, same_iff, same_iff, eq_comm]

theorem same_congr {a b : Identity} (h : a.address = b.address) (i : Identity) :
    i.same a = i.same b := by
  rw [Bool.eq_iff_iff, same_iff, same_iff, h]

theorem eq_of_kind {a b : Identity} (h : a.address = b.address) (hk : a.kind = b.kind) : a = b := by
  cases a
  cases b
  simp_all [address]

theorem isNumeric_congr {a b : Identity} (h : a.address = b.address) :
    a.isNumeric = b.isNumeric := by
  simp only [address, Address.mk.injEq] at h
  rw [isNumeric, isNumeric, h.2]

theorem eq_of_namespace {a b : Identity} (h : a.address = b.address) (ha : a.kind = .namespace) :
    a = b := by
  refine eq_of_kind h ?_
  have hc : a.kind.catalog = b.kind.catalog := congrArg Address.catalog h
  rw [ha] at hc ⊢
  cases hb : b.kind <;> simp_all [Kind.catalog]

theorem eq_name_of_not_numeric {i : Identity} (h : i.isNumeric = false) :
    ∃ s, i.key = .name s := by
  cases hk : i.key with
  | name s => exact ⟨s, rfl⟩
  | oid n => simp [isNumeric, hk, Key.isNumeric] at h

theorem catalog_of_name {a b : Catalog} (h : a.name = b.name) : a = b := by
  cases a <;> cases b <;> first | rfl | exact absurd h (by decide)

theorem address_of_sortKey {a b : Identity} (ha : a.isNumeric = false) (hb : b.isNumeric = false)
    (h : a.sortKey = b.sortKey) : a.address = b.address := by
  obtain ⟨s, hs⟩ := eq_name_of_not_numeric ha
  obtain ⟨t, ht⟩ := eq_name_of_not_numeric hb
  simp only [sortKey, hs, ht, Key.text, Prod.mk.injEq] at h
  simp only [address, hs, ht, h.1, catalog_of_name h.2]

theorem sortKey_congr {a b : Identity} (h : a.address = b.address) : a.sortKey = b.sortKey := by
  simp only [address, Address.mk.injEq] at h
  rw [sortKey, sortKey, h.1, h.2]

theorem sortKey_of_creationRank {a b : Identity} (h : a.creationRank = b.creationRank) :
    a.sortKey = b.sortKey :=
  congrArg Prod.snd h

theorem find?_same_iff {nodes : List Identity} (hn : (nodes.map Identity.address).Nodup) :
    nodes.find? (·.same i) = some j ↔ j ∈ nodes ∧ j.address = i.address := by
  have hfound : ∀ {k}, nodes.find? (·.same i) = some k → k ∈ nodes ∧ k.address = i.address :=
    fun hk => ⟨List.mem_of_find?_eq_some hk,
      same_iff.mp (by simpa using List.find?_some hk)⟩
  refine ⟨hfound, fun ⟨hj, ha⟩ => ?_⟩
  obtain ⟨k, hk⟩ : ∃ k, nodes.find? (·.same i) = some k := by
    rw [← Option.isSome_iff_exists, List.find?_isSome]
    exact ⟨j, hj, same_iff.mpr ha⟩
  rw [hk, List.inj_on_of_nodup_map hn (hfound hk).1 hj ((hfound hk).2.trans ha.symm)]

end Identity

namespace Edge

theorem joins_iff {e : Edge} {s t : Identity} :
    e.joins s t = true ↔ e.arc = (s.address, t.address) := by
  simp [joins, arc, Identity.same_iff]

theorem joins_edge {e d : Edge} : e.joins d.source d.target = true ↔ e.arc = d.arc :=
  joins_iff

theorem same_iff {a b : Edge} : a.same b = true ↔ a.arc = b.arc ∧ a.edgeClass = b.edgeClass := by
  simp [same, arc, Identity.same_iff, and_assoc]

theorem inside_iff {e : Edge} {points : List Address} :
    e.inside points = true ↔ e.source.address ∈ points ∧ e.target.address ∈ points := by
  simp [inside]

end Edge

-- ---------------------------------------------------------------------------
-- Objects and edges
-- ---------------------------------------------------------------------------

/-- Named identities of different objects, and edges from one of them to
another, at most one for each pair. -/
structure Digraph (nodes : List Identity) (edges : List Edge) : Prop where
  nodes_nodup : (nodes.map Identity.address).Nodup
  named : ∀ i ∈ nodes, i.isNumeric = false
  source_mem : ∀ e ∈ edges, e.source ∈ nodes
  target_mem : ∀ e ∈ edges, e.target ∈ nodes
  loopless : ∀ e ∈ edges, e.source.address ≠ e.target.address
  arcs_nodup : (edges.map Edge.arc).Nodup

namespace Digraph

variable {nodes : List Identity} {edges : List Edge}

theorem eq_of_address (h : Digraph nodes edges) (hi : i ∈ nodes) (hj : j ∈ nodes)
    (ha : i.address = j.address) : i = j :=
  List.inj_on_of_nodup_map h.nodes_nodup hi hj ha

theorem edges_nodup (h : Digraph nodes edges) : edges.Nodup :=
  h.arcs_nodup.of_map _

theorem eq_of_arc (h : Digraph nodes edges) (he : e ∈ edges) (hd : d ∈ edges)
    (ha : e.arc = d.arc) : e = d :=
  List.inj_on_of_nodup_map h.arcs_nodup he hd ha

theorem eq_of_sortKey (h : Digraph nodes edges) :
    ∀ i ∈ nodes, ∀ j ∈ nodes, i.sortKey = j.sortKey → i = j :=
  fun i hi j hj hk =>
    h.eq_of_address hi hj (Identity.address_of_sortKey (h.named i hi) (h.named j hj) hk)

theorem eq_of_creationRank (h : Digraph nodes edges) :
    ∀ i ∈ nodes, ∀ j ∈ nodes, i.creationRank = j.creationRank → i = j :=
  fun i hi j hj hr => h.eq_of_sortKey i hi j hj (Identity.sortKey_of_creationRank hr)

theorem eq_of_edgeKey (h : Digraph nodes edges) :
    ∀ e ∈ edges, ∀ d ∈ edges, e.sortKey = d.sortKey → e = d := by
  intro e he d hd hk
  simp only [Edge.sortKey, Prod.mk.injEq] at hk
  have hs := h.eq_of_sortKey _ (h.source_mem e he) _ (h.source_mem d hd) hk.1
  have ht := h.eq_of_sortKey _ (h.target_mem e he) _ (h.target_mem d hd) hk.2
  exact h.eq_of_arc he hd (by rw [Edge.arc, Edge.arc, hs, ht])

theorem sublist (h : Digraph nodes edges) (hs : part.Sublist edges) : Digraph nodes part :=
  ⟨h.nodes_nodup, h.named, fun e he => h.source_mem e (hs.subset he),
    fun e he => h.target_mem e (hs.subset he), fun e he => h.loopless e (hs.subset he),
    h.arcs_nodup.sublist (hs.map _)⟩

theorem sortIdentities_strict (h : Digraph nodes edges) (hsub : is ⊆ nodes) (hn : is.Nodup) :
    (sortIdentities is).Pairwise fun i j =>
      sortKeyLe i.sortKey j.sortKey = true ∧ i.sortKey ≠ j.sortKey :=
  sortOn_strict linearLe_sortKey (fun i hi j hj => h.eq_of_sortKey i (hsub hi) j (hsub hj)) hn

theorem sortEdges_strict (h : Digraph nodes edges) : (sortEdges edges).Pairwise fun e d =>
    edgeKeyLe e.sortKey d.sortKey = true ∧ e.sortKey ≠ d.sortKey :=
  sortOn_strict linearLe_edgeKey h.eq_of_edgeKey h.edges_nodup

theorem perm (h : Digraph nodes edges) (hn : nodes.Perm nodes') (he : edges.Perm edges') :
    Digraph nodes' edges' :=
  ⟨(hn.map _).nodup h.nodes_nodup, fun i hi => h.named i (hn.mem_iff.mpr hi),
    fun e hm => hn.mem_iff.mp (h.source_mem e (he.mem_iff.mpr hm)),
    fun e hm => hn.mem_iff.mp (h.target_mem e (he.mem_iff.mpr hm)),
    fun e hm => h.loopless e (he.mem_iff.mpr hm), (he.map _).nodup h.arcs_nodup⟩

open Acyclic (arcs)
open Reach (Step)

theorem step_iff {a b : Address} :
    Step (arcs edges) a b ↔ ∃ e ∈ edges, e.source.address = a ∧ e.target.address = b := by
  simp [Step, arcs, Edge.arc]

theorem step_of_mem (he : e ∈ edges) : Step (arcs edges) e.source.address e.target.address :=
  step_iff.mpr ⟨e, he, rfl, rfl⟩

theorem step_ends (h : Digraph nodes edges) {a b : Address} (hs : Step (arcs edges) a b) :
    a ∈ nodes.map Identity.address ∧ b ∈ nodes.map Identity.address := by
  obtain ⟨e, he, rfl, rfl⟩ := step_iff.mp hs
  exact ⟨List.mem_map_of_mem (h.source_mem e he), List.mem_map_of_mem (h.target_mem e he)⟩

theorem not_step_self (h : Digraph nodes edges) (a : Address) : ¬ Step (arcs edges) a a := by
  intro hs
  obtain ⟨e, he, rfl, ht⟩ := step_iff.mp hs
  exact h.loopless e he ht.symm

end Digraph

/-- Every object is there once, and edges lead from objects to objects, at most one from
one to another. -/
structure Simple (nodes : List Identity) (edges : List Edge) : Prop where
  nodes_nodup : (nodes.map Identity.address).Nodup
  arcs_nodup : (edges.map Edge.arc).Nodup
  ends_mem : ∀ e ∈ edges, e.source.address ∈ nodes.map Identity.address ∧
    e.target.address ∈ nodes.map Identity.address

theorem Simple.eq_of_address {nodes : List Identity} (h : Simple nodes edges) (hi : i ∈ nodes)
    (hj : j ∈ nodes) (ha : i.address = j.address) : i = j :=
  List.inj_on_of_nodup_map h.nodes_nodup hi hj ha

theorem Digraph.simple {nodes : List Identity} (h : Digraph nodes edges) : Simple nodes edges where
  nodes_nodup := h.nodes_nodup
  arcs_nodup := h.arcs_nodup
  ends_mem e he :=
    ⟨List.mem_map_of_mem (h.source_mem e he), List.mem_map_of_mem (h.target_mem e he)⟩

/-- Different objects, and edges that name them as they are. -/
structure Closed (nodes : List Identity) (edges : List Edge) : Prop where
  nodes_nodup : (nodes.map Identity.address).Nodup
  source_mem : ∀ e ∈ edges, e.source ∈ nodes
  target_mem : ∀ e ∈ edges, e.target ∈ nodes

theorem Digraph.closed {nodes : List Identity} (h : Digraph nodes edges) : Closed nodes edges :=
  ⟨h.nodes_nodup, h.source_mem, h.target_mem⟩

namespace Closed

variable {nodes : List Identity} {edges : List Edge}

theorem eq_of_address (h : Closed nodes edges) (hi : i ∈ nodes) (hj : j ∈ nodes)
    (ha : i.address = j.address) : i = j :=
  List.inj_on_of_nodup_map h.nodes_nodup hi hj ha

theorem nodup (h : Closed nodes edges) : nodes.Nodup :=
  h.nodes_nodup.of_map _

theorem ends_mem (h : Closed nodes edges) : ∀ e ∈ edges,
    e.source.address ∈ nodes.map Identity.address ∧ e.target.address ∈ nodes.map Identity.address :=
  fun e he => ⟨List.mem_map_of_mem (h.source_mem e he), List.mem_map_of_mem (h.target_mem e he)⟩

end Closed

end CatalogPlan
