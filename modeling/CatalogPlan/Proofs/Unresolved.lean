import CatalogPlan.Proofs.Deferral
import CatalogPlan.Proofs.LeastOrder

/-!
# What checking a plan finds

A plan is checked against the edges of the graph and by the places of its order,
without the view that it was made from. Whatever order of all objects is checked,
the check finds the edges that the view retains and the order has the wrong way
round, so that it accepts the orders that respect the view and no others.
-/

namespace CatalogPlan

open Acyclic (arcs)
open Reach (Step)

-- ---------------------------------------------------------------------------
-- Places in an order
-- ---------------------------------------------------------------------------

instance [DecidableEq α] (xs : List α) (a b : α) : Decidable (Before xs a b) :=
  inferInstanceAs (Decidable (List.Sublist [a, b] xs))

theorem before_of_getElem? {xs : List α} {m n : Nat} (ha : xs[m]? = some a) (hb : xs[n]? = some b)
    (hlt : m < n) : Before xs a b := by
  refine List.cons_sublist_iff.mpr ⟨xs.take n, xs.drop n, (List.take_append_drop n xs).symm, ?_, ?_⟩
  · exact List.mem_of_getElem? ((List.getElem?_take_of_lt hlt).trans ha)
  · have hfirst : (xs.drop n)[0]? = some b := by rwa [List.getElem?_drop]
    exact List.singleton_sublist.mpr (List.mem_of_getElem? hfirst)

theorem before_iff_lt {xs : List α} {m n : Nat} (hn : xs.Nodup) (ha : xs[m]? = some a)
    (hb : xs[n]? = some b) : Before xs a b ↔ m < n := by
  constructor
  · intro h
    obtain ⟨i, j, hi, hj, hlt⟩ := h.exists_getElem?
    obtain rfl := (List.getElem?_inj (List.getElem?_eq_some_iff.mp hi).1 hn).mp (hi.trans ha.symm)
    obtain rfl := (List.getElem?_inj (List.getElem?_eq_some_iff.mp hj).1 hn).mp (hj.trans hb.symm)
    exact hlt
  · exact before_of_getElem? ha hb

namespace Plan

variable {p : Plan}

theorem position?_congr (p : Plan) (h : i.address = j.address) : p.position? i = p.position? j := by
  unfold position?
  simp only [Identity.same_congr h]

theorem exists_position? (hn : (p.order.map Identity.address).Nodup)
    (hi : i.address ∈ p.order.map Identity.address) :
    ∃ k : Nat, p.position? i = some k ∧ (p.order.map Identity.address)[k]? = some i.address := by
  obtain ⟨j, hj, ha⟩ := List.mem_map.mp hi
  obtain ⟨k, hk⟩ := List.getElem?_of_mem hj
  refine ⟨k, ?_, ?_⟩
  · rw [← p.position?_congr ha, p.position?_eq hn hk]
  · rw [List.getElem?_map, hk, Option.map_some, ha]

/-- Where the ends of all edges are in the order, an edge is found when it is not
deferred and its source has the earlier place. -/
theorem unresolved_eq (hn : (p.order.map Identity.address).Nodup)
    (hends : ∀ e ∈ g.sortedEdges, e.source.address ∈ p.order.map Identity.address ∧
      e.target.address ∈ p.order.map Identity.address) :
    p.unresolved g = g.sortedEdges.filter fun e => !p.deferred.any (·.same e) &&
      decide (Before (p.order.map Identity.address) e.source.address e.target.address) := by
  refine List.filter_congr fun e he => ?_
  obtain ⟨s, hs, hsource⟩ := exists_position? hn (hends e he).1
  obtain ⟨t, ht, htarget⟩ := exists_position? hn (hends e he).2
  simp only [hs, ht, before_iff_lt hn hsource htarget]

end Plan

-- ---------------------------------------------------------------------------
-- Orders that respect a view
-- ---------------------------------------------------------------------------

theorem not_before_iff {xs : List α} (hn : xs.Nodup) (ha : a ∈ xs) (hb : b ∈ xs) (hne : a ≠ b) :
    ¬ Before xs a b ↔ Before xs b a := by
  obtain ⟨m, hm⟩ := List.getElem?_of_mem ha
  obtain ⟨n, hk⟩ := List.getElem?_of_mem hb
  have hplaces : m ≠ n := by
    rintro rfl
    exact hne (Option.some.inj (hm.symm.trans hk))
  rw [before_iff_lt hn hm hk, before_iff_lt hn hk hm]
  omega

theorem Graph.mem_retainedEdges {g : Graph} (hd : Digraph g.nodes g.edges) :
    e ∈ g.brokenView.retainedEdges ↔ e ∈ g.edges ∧ e ∉ g.deferredEdges := by
  rw [View.retainedEdges, View.edges_eq (Graph.brokenView_digraph hd), sortEdges, mem_sortOn,
    Graph.mem_retained hd]

theorem Graph.any_deferred {g : Graph} (hd : Digraph g.nodes g.edges) (he : e ∈ g.edges) :
    g.deferredEdges.any (·.same e) = true ↔ e ∈ g.deferredEdges := by
  rw [List.any_eq_true]
  constructor
  · rintro ⟨d, hm, hs⟩
    rwa [← hd.eq_of_arc (Graph.deferredEdges_subset hm).1 he (Edge.same_iff.mp hs).1]
  · exact fun hm => ⟨e, hm, Edge.same_iff.mpr ⟨rfl, rfl⟩⟩

section
variable {g : Graph} {order : List Identity} (hd : Digraph g.nodes g.edges)
  (ho : (order.map Identity.address).Perm (g.nodes.map Identity.address))
include hd ho

theorem ends_mem_order (he : e ∈ g.edges) : e.source.address ∈ order.map Identity.address ∧
    e.target.address ∈ order.map Identity.address :=
  ⟨ho.mem_iff.mpr (List.mem_map_of_mem (hd.source_mem e he)),
    ho.mem_iff.mpr (List.mem_map_of_mem (hd.target_mem e he))⟩

theorem unresolved_retained : (⟨order, g.deferredEdges⟩ : Plan).unresolved g =
    g.sortedEdges.filter fun e => decide (e ∈ g.brokenView.retainedEdges ∧
      Before (order.map Identity.address) e.source.address e.target.address) := by
  have hmem : ∀ {e}, e ∈ g.sortedEdges → e ∈ g.edges := fun he => mem_sortOn.mp he
  rw [Plan.unresolved_eq (ho.symm.nodup hd.nodes_nodup) fun e he => ends_mem_order hd ho (hmem he)]
  refine List.filter_congr fun e he => ?_
  rw [Bool.eq_iff_iff, Bool.and_eq_true, Bool.not_eq_true', ← Bool.not_eq_true,
    Graph.any_deferred hd (hmem he), decide_eq_true_eq, decide_eq_true_eq, Graph.mem_retainedEdges hd]
  exact and_congr_left' ⟨fun hnot => ⟨hmem he, hnot⟩, And.right⟩

theorem topological_iff_forall :
    Topological (g.nodes.map Identity.address) (arcs g.brokenView.retained)
        (order.map Identity.address) ↔
      ∀ e ∈ g.brokenView.retained,
        ¬ Before (order.map Identity.address) e.source.address e.target.address := by
  have hflip : ∀ e ∈ g.brokenView.retained,
      (¬ Before (order.map Identity.address) e.source.address e.target.address ↔
        Before (order.map Identity.address) e.target.address e.source.address) := by
    intro e he
    have hmem := ((Graph.mem_retained hd).mp he).1
    obtain ⟨hs, ht⟩ := ends_mem_order hd ho hmem
    exact not_before_iff (ho.symm.nodup hd.nodes_nodup) hs ht (hd.loopless e hmem)
  constructor
  · exact fun h e he => (hflip e he).mpr (h.before (Digraph.step_of_mem he))
  · intro h
    refine ⟨ho, fun hs => ?_⟩
    obtain ⟨e, he, rfl, rfl⟩ := Digraph.step_iff.mp hs
    exact (hflip e he).mp (h e he)

end

/-- Checking any order of all objects with the references that cycle breaking defers
finds the retained edges whose target comes after their source, in the order of the
edges. So it finds nothing exactly in the orders that respect what is retained. -/
theorem unresolved_exact {batches : Batches} {failedKinds : List Value} {g : Graph} {v : View}
    {order : List Identity} (hg : (Graph.build batches failedKinds).result = .ok g)
    (hv : g.breakCycles.result = .ok v)
    (ho : (order.map Identity.address).Perm (g.nodes.map Identity.address)) :
    ((⟨order, v.deferred⟩ : Plan).unresolved g = [] ↔
      Topological (v.nodes.map Identity.address) (arcs v.retained) (order.map Identity.address)) ∧
    (⟨order, v.deferred⟩ : Plan).unresolved g = g.sortedEdges.filter fun e =>
      decide (e ∈ v.retainedEdges ∧
        Before (order.map Identity.address) e.source.address e.target.address) := by
  have hd := build_digraph hg
  obtain ⟨rfl, -, -⟩ := Graph.breakCycles_view hd hv
  have hfound := unresolved_retained hd ho
  refine ⟨?_, hfound⟩
  refine Iff.trans ?_ (topological_iff_forall hd ho).symm
  rw [show g.brokenView.deferred = g.deferredEdges from rfl, hfound, List.filter_eq_nil_iff]
  simp only [decide_eq_true_eq, not_and, Graph.mem_retained hd, Graph.mem_retainedEdges hd,
    Graph.sortedEdges, sortEdges, mem_sortOn]
  exact ⟨fun h e he => h e he.1 he, fun h e _ he => h e he⟩

theorem unresolved_exact_shop : ∃ g v, (Graph.build shop []).result = .ok g ∧
    g.breakCycles.result = .ok v ∧
    (⟨g.nodes, v.deferred⟩ : Plan).unresolved g ≠ [] ∧
    ¬ Topological (v.nodes.map Identity.address) (arcs v.retained) (g.nodes.map Identity.address) := by
  obtain ⟨v, hrun⟩ : ∃ v, (Graph.build shop [] >>= Graph.breakCycles).result = .ok v :=
    isOk_iff.mp (by decide)
  obtain ⟨g, hg, hv⟩ := Traced.bind_ok.mp hrun
  have hchecked : (Graph.build shop []).result.toOption.all fun g =>
      g.breakCycles.result.toOption.all fun v =>
        !((⟨g.nodes, v.deferred⟩ : Plan).unresolved g).isEmpty := by decide
  rw [hg] at hchecked
  simp only [Except.toOption, Option.all_some, hv, Bool.not_eq_true', List.isEmpty_eq_false_iff]
    at hchecked
  exact ⟨g, v, hg, hv, hchecked, fun htop =>
    hchecked ((unresolved_exact hg hv (.refl _)).1.mpr htop)⟩

end CatalogPlan
