import CatalogPlan.Proofs.Faults
import CatalogPlan.Proofs.Graph.Exact
import CatalogPlan.Proofs.Queue

/-!
# Plans fit their graphs

A run that gives a plan creates every object of its graph once, after all it
depends on but for references that are deferred. A run that gets as far as the
graph fails only where edges that cannot be deferred form a cycle.
-/

namespace CatalogPlan

open Acyclic (arcs fixed)

variable {batches b : Batches} {failedKinds : List Value} {g : Graph}

-- ---------------------------------------------------------------------------
-- Plans and graphs
-- ---------------------------------------------------------------------------

/-- A plan creates every object of a graph once and after what it depends on,
but for references that it defers. -/
structure Plan.Fits (p : Plan) (g : Graph) : Prop where
  order_perm : p.order.Perm g.nodes
  order_nodup : (p.order.map Identity.address).Nodup
  edges_nodup : (g.sortedEdges.map Edge.arc).Nodup
  retained_before : ∀ e ∈ g.sortedEdges, e ∉ p.deferred → Before p.order e.target e.source
  deferred_mem : ∀ e ∈ p.deferred, e ∈ g.sortedEdges ∧ e.edgeClass = .referential
  deferred_nodup : (p.deferred.map Edge.arc).Nodup
  ends_mem : ∀ e ∈ g.sortedEdges, e.source ∈ p.order ∧ e.target ∈ p.order

namespace Plan.Fits

variable {p : Plan}

theorem fixed_before (h : p.Fits g) (he : e ∈ g.sortedEdges) (hc : e.edgeClass ≠ .referential) :
    Before p.order e.target e.source :=
  h.retained_before e he fun hd => hc (h.deferred_mem e hd).2

theorem position?_eq_some (h : p.Fits g) (hi : i ∈ p.order) :
    ∃ k, p.order[k]? = some i ∧ p.position? i = some k := by
  obtain ⟨k, hk⟩ := List.getElem?_of_mem hi
  exact ⟨k, hk, p.position?_eq h.order_nodup hk⟩

theorem position?_lt (h : p.Fits g) (hb : Before p.order i j) :
    ∃ m n, p.position? i = some m ∧ p.position? j = some n ∧ m < n := by
  obtain ⟨m, n, hm, hn, hlt⟩ := hb.exists_getElem?
  exact ⟨m, n, p.position?_eq h.order_nodup hm, p.position?_eq h.order_nodup hn, hlt⟩

theorem unresolved_eq_nil (h : p.Fits g) : p.unresolved g = [] := by
  unfold Plan.unresolved
  rw [List.filter_eq_nil_iff]
  intro e he
  obtain ⟨hs, ht⟩ := h.ends_mem e he
  obtain ⟨s, -, hs⟩ := h.position?_eq_some hs
  obtain ⟨t, -, ht⟩ := h.position?_eq_some ht
  simp only [hs, ht, Bool.and_eq_true, Bool.not_eq_true', decide_eq_true_eq, not_and, not_lt]
  intro hany
  have hnot : e ∉ p.deferred := by
    intro hd
    have hself := List.any_eq_false.mp hany e hd
    exact hself (Edge.same_iff.mpr ⟨rfl, rfl⟩)
  obtain ⟨m, n, hm, hn, hlt⟩ := h.position?_lt (h.retained_before e he hnot)
  obtain rfl := Option.some.inj (ht.symm.trans hm)
  obtain rfl := Option.some.inj (hs.symm.trans hn)
  omega

end Plan.Fits

-- ---------------------------------------------------------------------------
-- Runs
-- ---------------------------------------------------------------------------

theorem build_digraph (h : (Graph.build batches failedKinds).result = .ok g) :
    Digraph g.nodes g.edges := by
  obtain ⟨failed, -, hcons, found, hfound, rfl⟩ := build_ok.mp h
  exact (exact_assembled hcons.named hfound).digraph hcons.named

def Graph.plan (g : Graph) : Plan :=
  ⟨(Emission.order g.brokenView.nodes g.brokenView.retained).1, g.deferredEdges⟩

theorem emit_brokenView (hd : Digraph g.nodes g.edges) (hf : Reach.Acyclic (arcs (fixed g.edges))) :
    g.brokenView.emit.result = .ok g.plan := by
  have hacyclic := Graph.brokenView_acyclic hd ((Graph.fixedCycle?_none_iff hd).mpr hf)
  have hview := Graph.brokenView_digraph hd
  have hnil := (Emission.order_acyclic hview.closed hacyclic).1
  exact (View.emit_ok hview.simple).mpr ⟨View.untied_of_digraph hview, hnil, rfl⟩

theorem fits_plan (hd : Digraph g.nodes g.edges) (hf : Reach.Acyclic (arcs (fixed g.edges))) :
    g.plan.Fits g := by
  have hview := Graph.brokenView_acyclic hd ((Graph.fixedCycle?_none_iff hd).mpr hf)
  obtain ⟨-, hperm, hbefore⟩ := Emission.order_acyclic (Graph.brokenView_digraph hd).closed hview
  have hmem : ∀ e, e ∈ g.sortedEdges ↔ e ∈ g.edges := fun e => mem_sortOn
  refine ⟨hperm, ?_, ?_, ?_, ?_, ?_, ?_⟩
  · exact (hperm.map _).symm.nodup hd.nodes_nodup
  · exact ((sortOn_perm _ _ _).map _).symm.nodup hd.arcs_nodup
  · intro e he hnot
    exact hbefore e ((Graph.mem_retained hd).mpr ⟨(hmem e).mp he, hnot⟩)
  · intro e he
    exact ⟨(hmem e).mpr (Graph.deferredEdges_subset he).1, Graph.deferredEdges_referential he⟩
  · exact Graph.deferredEdges_arcs_nodup hd
  · intro e he
    exact ⟨hperm.mem_iff.mpr (hd.source_mem e ((hmem e).mp he)),
      hperm.mem_iff.mpr (hd.target_mem e ((hmem e).mp he))⟩

theorem plan_ok [Sql.Parser] : (plan batches failedKinds).result = .ok p ↔
    ∃ b, (Routine.augmentAll batches).result = .ok b ∧
      ∃ g, (Graph.build b failedKinds).result = .ok g ∧
        Reach.Acyclic (arcs (fixed g.edges)) ∧ ⟨g, g.brokenView, g.plan⟩ = p := by
  unfold plan
  simp only [Traced.bind_ok, Traced.emit_result, Traced.pure_ok]
  constructor
  · rintro ⟨b, hb, g, hg, v, hv, q, hq, _, -, rfl⟩
    have hd := build_digraph hg
    obtain ⟨hf, rfl⟩ := (Graph.breakCycles_ok hd).mp hv
    rw [emit_brokenView hd hf] at hq
    obtain rfl := Except.ok.inj hq
    exact ⟨b, hb, g, hg, hf, rfl⟩
  · rintro ⟨b, hb, g, hg, hf, rfl⟩
    have hd := build_digraph hg
    exact ⟨b, hb, g, hg, _, (Graph.breakCycles_ok hd).mpr ⟨hf, rfl⟩, _, emit_brokenView hd hf, (),
      trivial, rfl⟩

theorem plan_error [Sql.Parser] (h : (plan batches failedKinds).result = .error fault) :
    (Routine.augmentAll batches).result = .error fault ∨
      ∃ b, (Routine.augmentAll batches).result = .ok b ∧
        ((Graph.build b failedKinds).result = .error fault ∨
          ∃ g, (Graph.build b failedKinds).result = .ok g ∧ g.breakCycles.result = .error fault) := by
  unfold plan at h
  simp only [Traced.bind_error, Traced.emit_result, Traced.result_pure, reduceCtorEq,
    and_false, exists_false, or_false] at h
  rcases h with h | ⟨b, hb, h | ⟨g, hg, h | ⟨v, hv, hemit⟩⟩⟩
  · exact .inl h
  · exact .inr ⟨b, hb, .inl h⟩
  · exact .inr ⟨b, hb, .inr ⟨g, hg, h⟩⟩
  · have hd := build_digraph hg
    obtain ⟨hf, rfl⟩ := (Graph.breakCycles_ok hd).mp hv
    rw [emit_brokenView hd hf] at hemit
    cases hemit

/-- Every plan fits its graph: the order respects what cannot be deferred, and
checking the plan finds nothing. -/
theorem plan_fits [Sql.Parser] (h : (plan batches failedKinds).result = .ok p) :
    p.plan.Fits p.graph ∧
      (∀ e ∈ p.graph.sortedEdges, e.edgeClass ≠ .referential →
        Before p.plan.order e.target e.source) ∧
      p.plan.unresolved p.graph = [] := by
  obtain ⟨b, -, g, hg, hf, rfl⟩ := plan_ok.mp h
  have hfits := fits_plan (build_digraph hg) hf
  exact ⟨hfits, fun e he hc => hfits.fixed_before he hc, hfits.unresolved_eq_nil⟩

theorem plan_fits_shop : ∃ p, (plan shop []).result = .ok p ∧ p.plan.Fits p.graph ∧
    p.plan.unresolved p.graph = [] := by
  obtain ⟨p, hp⟩ : ∃ p, (plan shop []).result = .ok p := isOk_iff.mp (by decide +kernel)
  exact ⟨p, hp, (plan_fits hp).1, (plan_fits hp).2.2⟩

/-- A run that gets as far as a graph gives a plan exactly when the edges that
cannot be deferred form no cycle, and no run is left with objects that it cannot
order. -/
theorem plan_ends [Sql.Parser] (batches : Batches) (failedKinds : List Value) :
    (∀ b g, (Routine.augmentAll batches).result = .ok b →
      (Graph.build b failedKinds).result = .ok g →
      ((∃ p, (plan batches failedKinds).result = .ok p) ↔ Reach.Acyclic (arcs (fixed g.edges))) ∧
      (¬ Reach.Acyclic (arcs (fixed g.edges)) → ∃ identities edges,
        (plan batches failedKinds).result = .error (.unbreakable identities edges)) ∧
      ∀ v, g.breakCycles.result = .ok v → ∃ p, v.emit.result = .ok p) ∧
    ∀ remaining, (plan batches failedKinds).result ≠ .error (.unordered remaining) := by
  refine ⟨fun b g hb hg => ?_, fun remaining h => ?_⟩
  · have hd := build_digraph hg
    have hiff : (∃ p, (plan batches failedKinds).result = .ok p) ↔
        Reach.Acyclic (arcs (fixed g.edges)) := by
      simp only [plan_ok, hb, Except.ok.injEq, exists_eq_left', hg]
      exact ⟨fun ⟨_, hf, _⟩ => hf, fun hf => ⟨_, hf, rfl⟩⟩
    refine ⟨hiff, fun hnot => ?_, fun v hv => ?_⟩
    · cases hr : (plan batches failedKinds).result with
      | ok p => exact absurd (hiff.mp ⟨p, hr⟩) hnot
      | error fault =>
        have hcase := plan_error hr
        simp only [hb, reduceCtorEq, false_or, Except.ok.injEq, exists_eq_left', hg] at hcase
        obtain ⟨identities, edges, rfl⟩ := Graph.breakCycles_error hcase
        exact ⟨identities, edges, rfl⟩
    · obtain ⟨hf, rfl⟩ := (Graph.breakCycles_ok hd).mp hv
      exact ⟨_, emit_brokenView hd hf⟩
  · rcases plan_error h with h | ⟨b, -, h | ⟨g, -, h⟩⟩
    · exact absurd (Routine.augmentAll_fault batches _ h) (by simp [Fault.inBodies])
    · exact absurd (build_fault b failedKinds _ h) (by simp [Fault.inSnapshot])
    · obtain ⟨identities, edges, heq⟩ := Graph.breakCycles_error h
      cases heq

theorem plan_ends_shop : ∃ b g, (Routine.augmentAll shop).result = .ok b ∧
    (Graph.build b []).result = .ok g ∧ Reach.Acyclic (arcs (fixed g.edges)) := by
  obtain ⟨p, hp⟩ : ∃ p, (plan shop []).result = .ok p := isOk_iff.mp (by decide +kernel)
  obtain ⟨b, hb, g, hg, -⟩ := plan_ok.mp hp
  exact ⟨b, g, hb, hg, ((plan_ends shop []).1 b g hb hg).1.mp ⟨p, hp⟩⟩

end CatalogPlan
