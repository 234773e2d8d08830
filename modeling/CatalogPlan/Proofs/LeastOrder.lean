import CatalogPlan.Proofs.Canonical
import CatalogPlan.Proofs.Congruence

/-!
# The order of creation is the least one

Of all orders of a view's objects that put the target of every edge before its
source, the plan has the one that comes first when objects are compared by their
creation ranks. An order that respects the edges starts with an object that is
ready, and the plan starts with the least of those. There is no plan where two
objects of one rank wait together.
-/

namespace CatalogPlan

open Acyclic (arcs)
open Reach (Step)

structure Topological (points : List α) (arcs : List (α × α)) (order : List α) : Prop where
  perm : order.Perm points
  before : ∀ {a b}, Step arcs a b → Before order b a

/-- The first of two identities is created before the second when no edge
decides. -/
def RankLt (i j : Identity) : Prop :=
  creationRankLe i.creationRank j.creationRank = true ∧ i.creationRank ≠ j.creationRank

theorem not_before_head {xs : List α} (hn : (b :: xs).Nodup) (a : α) : ¬ Before (b :: xs) a b := by
  have hb := (List.nodup_cons.mp hn).1
  intro h
  cases h with
  | cons _ h => exact hb (h.subset (by simp))
  | cons_cons _ h => exact hb (h.subset (by simp))

theorem Before.of_cons {xs : List α} (h : Before (c :: xs) a b) (ha : a ≠ c) : Before xs a b := by
  cases h with
  | cons _ h => exact h
  | cons_cons _ _ => exact absurd rfl ha

-- ---------------------------------------------------------------------------
-- Orders that respect the edges
-- ---------------------------------------------------------------------------

namespace Topological

variable {nodes : List Identity} {es : List Edge} {rest : List Identity}

theorem head_ready (hr : Closed nodes es) (h : Topological nodes (es.map Edge.ends) (i :: rest)) :
    i ∈ Emission.ready nodes es := by
  have hi : i ∈ nodes := h.perm.mem_iff.mp (by simp)
  refine Emission.mem_ready.mpr ⟨hi, fun e he hs => ?_⟩
  obtain rfl := hr.eq_of_address (hr.source_mem e he) hi hs
  have hnodup := h.perm.nodup_iff.mpr hr.nodup
  exact not_before_head hnodup e.target (h.before (step_ends_iff.mpr ⟨e, he, rfl, rfl⟩))

theorem tail (hr : Closed nodes es) (h : Topological nodes (es.map Edge.ends) (i :: rest)) :
    Topological (nodes.filter fun j => !j.same i)
      ((es.filter fun e => !e.target.same i).map Edge.ends) rest := by
  have hi := (List.nodup_cons.mp (h.perm.nodup_iff.mpr hr.nodup)).1
  refine ⟨?_, ?_⟩
  · have hperm := h.perm.filter fun j => !j.same i
    have hmem : ∀ k ∈ i :: rest, k ∈ nodes := fun k hk => h.perm.mem_iff.mp hk
    have hrest : rest.filter (fun j => !j.same i) = rest := by
      refine List.filter_eq_self.mpr fun j hj => ?_
      rw [Bool.not_eq_true', Identity.same_eq_false]
      intro ha
      exact hi (hr.eq_of_address (hmem j (by simp [hj])) (hmem i (by simp)) ha ▸ hj)
    simpa [hrest] using hperm
  · intro a b hs
    obtain ⟨e, he, rfl, rfl⟩ := step_ends_iff.mp hs
    obtain ⟨hmem, ht⟩ := List.mem_filter.mp he
    apply (h.before (step_ends_iff.mpr ⟨e, hmem, rfl, rfl⟩)).of_cons
    rintro rfl
    simp at ht

end Topological

-- ---------------------------------------------------------------------------
-- Emission
-- ---------------------------------------------------------------------------

namespace Emission

variable {nodes : List Identity} {es : List Edge}

/-- No order that respects the edges comes before the one that emission gives. -/
theorem emitFrom_least (steps : Nat) (hc : Closed nodes es) (hsteps : nodes.length ≤ steps)
    (hu : Untied (queues steps nodes es)) (h : Topological nodes (es.map Edge.ends) o) :
    o = (emitFrom steps nodes es).1 ∨ List.Lex RankLt (emitFrom steps nodes es).1 o := by
  induction steps generalizing nodes es o with
  | zero =>
    obtain rfl : nodes = [] := List.length_eq_zero_iff.mp (Nat.le_zero.mp hsteps)
    exact .inl h.perm.eq_nil
  | succ steps ih =>
    cases o with
    | nil =>
      obtain rfl := h.perm.nil_eq
      exact .inl rfl
    | cons j rest =>
      have hj := h.head_ready hc
      rw [queues] at hu
      obtain ⟨hranks, hrest⟩ := List.forall_mem_cons.mp hu
      rw [emitFrom_succ]
      cases hl : least? (ready nodes es) with
      | none =>
        rw [least?_eq_none.mp hl] at hj
        cases hj
      | some i =>
        have hi := least?_mem hl
        rw [hl] at hrest
        simp only [map_release hc] at hrest ⊢
        by_cases hrank : i.creationRank = j.creationRank
        · -- The same object comes first, and what follows it decides.
          obtain rfl := List.inj_on_of_nodup_map hranks hi hj hrank
          have hlen : (nodes.filter fun k => !k.same i).length < nodes.length :=
            List.length_filter_lt_length_iff_exists.mpr ⟨i, (mem_ready.mp hi).1, by simp⟩
          rcases ih (closed_rest hc hi) (by omega) hrest (h.tail hc) with heq | hlt
          · exact .inl (congrArg (i :: ·) heq)
          · exact .inr (.cons hlt)
        · exact .inr (.rel ⟨least?_le hl j hj, hrank⟩)

theorem untied_of_ranks (steps : Nat) (hc : Closed nodes es)
    (hn : (nodes.map Identity.creationRank).Nodup) : Untied (queues steps nodes es) := by
  induction steps generalizing nodes es with
  | zero => simp [queues, Untied]
  | succ steps ih =>
    rw [queues]
    refine List.forall_mem_cons.mpr ⟨hn.sublist (List.filter_sublist.map _), ?_⟩
    cases hl : least? (ready nodes es) with
    | none => simp
    | some i =>
      simp only [map_release hc]
      exact ih (closed_rest hc (least?_mem hl)) (hn.sublist (List.filter_sublist.map _))

theorem order_addresses (hs : Simple nodes es) (hc : Reach.Acyclic (arcs es)) :
    (order nodes es).2 = [] ∧ Topological (nodes.map Identity.address) (arcs es)
      ((order nodes es).1.map Identity.address) := by
  have hemitted := order_emitted hs
  have hnil := hemitted.waiting_eq_nil hc
  have hperm := hemitted.perm
  rw [hnil, List.append_nil] at hperm
  refine ⟨hnil, hperm, fun h => ?_⟩
  obtain ⟨e, he, rfl, rfl⟩ := Digraph.step_iff.mp h
  exact hemitted.before e he (hperm.mem_iff.mpr (hs.ends_mem e he).1)

theorem order_identities (hr : Closed nodes es) (hc : Reach.Acyclic (arcs es)) :
    Topological nodes (es.map Edge.ends) (order nodes es).1 := by
  obtain ⟨-, hperm, hbefore⟩ := order_acyclic hr hc
  refine ⟨hperm, fun hs => ?_⟩
  obtain ⟨e, he, rfl, rfl⟩ := step_ends_iff.mp hs
  exact hbefore e he

end Emission

namespace View

variable {v w : View}

theorem untied_of_normal (hn : (v.nodes.map Identity.address).Nodup)
    (hnormal : ∀ i ∈ v.nodes, ∃ raw : RawIdentity, raw.normalize = .ok i) : v.Untied := by
  refine Emission.untied_of_sortKeys _ _ _ hn fun i hi j hj => ?_
  obtain ⟨raw, hraw⟩ := hnormal i hi
  obtain ⟨raw', hraw'⟩ := hnormal j hj
  exact (normalize_canonical hraw).address_of_sortKey (normalize_canonical hraw')

theorem acyclic_of_ends (hc : Reach.Acyclic (arcs v.retained))
    (hs : ∀ i j, Step (w.retained.map Edge.ends) i j → Step (v.retained.map Edge.ends) i j) :
    Reach.Acyclic (arcs w.retained) := by
  refine Reach.Acyclic.mono ?_ hc
  intro arc ha
  obtain ⟨e, he, rfl⟩ := List.mem_map.mp ha
  obtain ⟨d, hd, hsource, htarget⟩ :=
    step_ends_iff.mp (hs _ _ (step_ends_iff.mpr ⟨e, he, rfl, rfl⟩))
  exact List.mem_map.mpr ⟨d, hd, by rw [Edge.arc, Edge.arc, hsource, htarget]⟩

theorem emit_congr (hc : Closed v.nodes v.retained) (hacyclic : Reach.Acyclic (arcs v.retained))
    (hu : v.Untied) (hs : Simple w.nodes w.retained) (hn : w.nodes.Perm v.nodes)
    (hsteps : ∀ i j, Step (w.retained.map Edge.ends) i j ↔ Step (v.retained.map Edge.ends) i j) :
    w.emit.result = .ok ⟨(Emission.order v.nodes v.retained).1, w.deferred⟩ := by
  obtain ⟨horder, huntied⟩ := Emission.order_congr hc hn.symm (fun i j => (hsteps i j).symm) hu
  have hnil := (Emission.order_addresses hs (acyclic_of_ends hacyclic fun i j => (hsteps i j).mp)).1
  exact (emit_ok hs).mpr ⟨huntied, hnil, by rw [horder]⟩

end View

/-- A view without cycles has a plan just where no two objects of one rank wait together,
and the plan has every object once and after all it needs. Where edges name objects as the
view does, no other such order comes before the one that is given, and it is given however
objects and edges are listed. Objects whose ranks differ never tie, nor do objects that
readers report, and the views that cycle breaking gives are of all these kinds. -/
theorem emit_least :
    (∀ v : View, Simple v.nodes v.retained → Reach.Acyclic (arcs v.retained) →
      ((∃ p, v.emit.result = .ok p) ↔ v.Untied) ∧
      ∀ p, v.emit.result = .ok p → p.deferred = v.deferred ∧
        Topological (v.nodes.map Identity.address) (arcs v.retained)
          (p.order.map Identity.address) ∧
        (Closed v.nodes v.retained →
          Topological v.nodes (v.retained.map Edge.ends) p.order ∧
          (∀ o, Topological v.nodes (v.retained.map Edge.ends) o →
            o = p.order ∨ List.Lex RankLt p.order o) ∧
          ∀ w : View, Simple w.nodes w.retained → w.nodes.Perm v.nodes →
            (∀ i j, Step (w.retained.map Edge.ends) i j ↔ Step (v.retained.map Edge.ends) i j) →
            ∃ q, w.emit.result = .ok q ∧ q.order = p.order)) ∧
    (∀ v : View, Closed v.nodes v.retained → (v.nodes.map Identity.creationRank).Nodup →
      v.Untied) ∧
    (∀ v : View, Simple v.nodes v.retained →
      (∀ i ∈ v.nodes, ∃ raw : RawIdentity, raw.normalize = .ok i) → v.Untied) ∧
    ∀ batches failedKinds g v, (Graph.build batches failedKinds).result = .ok g →
      g.breakCycles.result = .ok v → Simple v.nodes v.retained ∧
        Reach.Acyclic (arcs v.retained) ∧ Closed v.nodes v.retained ∧ v.Untied := by
  refine ⟨fun v hs hacyclic => ?_, fun v hc hn => Emission.untied_of_ranks _ hc hn,
    fun v hs => View.untied_of_normal hs.nodes_nodup, fun batches failedKinds g v hg hv => ?_⟩
  · obtain ⟨hnil, haddresses⟩ := Emission.order_addresses hs hacyclic
    refine ⟨?_, fun p hp => ?_⟩
    · simp only [View.emit_ok hs, hnil, true_and, exists_and_left, exists_eq, and_true]
    · obtain ⟨hu, -, rfl⟩ := (View.emit_ok hs).mp hp
      refine ⟨rfl, haddresses, fun hc => ⟨Emission.order_identities hc hacyclic, ?_, ?_⟩⟩
      · intro o ho
        exact Emission.emitFrom_least v.nodes.length hc (Nat.le_refl _) hu ho
      · intro w hw hn hsteps
        exact ⟨_, View.emit_congr hc hacyclic hu hw hn hsteps, rfl⟩
  · obtain ⟨-, hdigraph, hacyclic⟩ := Graph.breakCycles_view (build_digraph hg) hv
    exact ⟨hdigraph.simple, hacyclic, hdigraph.closed, View.untied_of_digraph hdigraph⟩

theorem emit_least_shop : ∃ g v p, (Graph.build shop []).result = .ok g ∧
    g.breakCycles.result = .ok v ∧ Closed v.nodes v.retained ∧ v.emit.result = .ok p ∧
    Topological v.nodes (v.retained.map Edge.ends) p.order ∧
    ∀ o, Topological v.nodes (v.retained.map Edge.ends) o →
      o = p.order ∨ List.Lex RankLt p.order o := by
  obtain ⟨v, hrun⟩ : ∃ v, (Graph.build shop [] >>= Graph.breakCycles).result = .ok v :=
    isOk_iff.mp (by decide)
  obtain ⟨g, hg, hv⟩ := Traced.bind_ok.mp hrun
  obtain ⟨hviews, -, -, hbuilt⟩ := emit_least
  obtain ⟨hs, hacyclic, hclosed, huntied⟩ := hbuilt shop [] g v hg hv
  obtain ⟨hplan, hleast⟩ := hviews v hs hacyclic
  obtain ⟨p, hp⟩ := hplan.mpr huntied
  obtain ⟨-, -, hidentities⟩ := hleast p hp
  exact ⟨g, v, p, hg, hv, hclosed, hp, (hidentities hclosed).1, (hidentities hclosed).2.1⟩

end CatalogPlan
