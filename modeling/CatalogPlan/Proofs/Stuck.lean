import CatalogPlan.Proofs.LeastOrder

/-!
# What emission leaves of a view with cycles

Emission stops when no object that is left is ready. The objects on cycles are
left then, and those that depend on them; what was taken out depends on none.
It fails in another way only where two objects of one rank wait together, since
then the objects would have to be compared, which have no order of their own.
-/

namespace CatalogPlan

open Acyclic (arcs)
open Reach (Path OnCycle Step)

namespace View

/-- The objects of a view that depend on a cycle, in the order of their sort keys. -/
structure Stuck (v : View) (remaining : List Identity) : Prop where
  mem_iff : ∀ i, i ∈ remaining ↔
    i ∈ v.nodes ∧ ∃ c, Path (arcs v.retained) i.address c ∧ OnCycle (arcs v.retained) c
  nodup : (remaining.map Identity.address).Nodup
  sorted : remaining.Pairwise fun i j => sortKeyLe i.sortKey j.sortKey = true

end View

-- ---------------------------------------------------------------------------
-- Taken out and left
-- ---------------------------------------------------------------------------

theorem Before.idxOf_lt [BEq α] [LawfulBEq α] {xs : List α} (hn : xs.Nodup) (h : Before xs a b) :
    xs.idxOf a < xs.idxOf b := by
  obtain ⟨m, n, hm, hn', hlt⟩ := h.exists_getElem?
  obtain ⟨hm, rfl⟩ := List.getElem?_eq_some_iff.mp hm
  obtain ⟨hn', rfl⟩ := List.getElem?_eq_some_iff.mp hn'
  rwa [hn.idxOf_getElem, hn.idxOf_getElem]

namespace Emission

section
variable {nodes : List Identity} {es : List Edge} {order waiting : List Identity}

theorem Emitted.path_closed (h : Emitted nodes es order waiting) (hp : Path (arcs es) a b)
    (ha : a ∈ order.map Identity.address) : b ∈ order.map Identity.address := by
  induction hp with
  | refl => exact ha
  | tail _ hs ih =>
    obtain ⟨e, he, rfl, rfl⟩ := Digraph.step_iff.mp hs
    exact (h.before e he ih).subset (by simp)

theorem Emitted.off_cycles (h : Emitted nodes es order waiting)
    (hn : (order.map Identity.address).Nodup) (ha : a ∈ order.map Identity.address)
    (hp : Path (arcs es) a c) : ¬ OnCycle (arcs es) c := by
  -- Among the arcs that start in the order each one leads to an earlier place.
  let inner := (arcs es).filter fun arc => decide (arc.1 ∈ order.map Identity.address)
  have hdown : Reach.Acyclic inner := by
    refine Reach.acyclic_of_rank (fun b => (order.map Identity.address).idxOf b) fun arc harc => ?_
    obtain ⟨hmem, hs⟩ := List.mem_filter.mp harc
    obtain ⟨e, he, rfl⟩ := List.mem_map.mp hmem
    exact (h.before e he (of_decide_eq_true hs)).idxOf_lt hn
  intro hc
  refine hdown c (hc.restrict fun x y hcx hs _ => ?_)
  exact List.mem_filter.mpr ⟨hs, decide_eq_true (h.path_closed (hp.trans hcx) ha)⟩

theorem Emitted.mem_waiting_iff (h : Emitted nodes es order waiting)
    (hn : (nodes.map Identity.address).Nodup) : i ∈ waiting ↔
      i ∈ nodes ∧ ∃ c, Path (arcs es) i.address c ∧ OnCycle (arcs es) c := by
  refine ⟨fun hi => ⟨h.kept hi, h.exists_cycle hi⟩, fun ⟨hi, c, hp, hc⟩ => ?_⟩
  have hboth := h.perm.nodup_iff.mpr hn
  rw [List.map_append] at hboth
  have hmem : i.address ∈ (order ++ waiting).map Identity.address :=
    h.perm.mem_iff.mpr (List.mem_map_of_mem hi)
  rw [List.map_append] at hmem
  rcases List.mem_append.mp hmem with horder | hwaiting
  · exact absurd hc (h.off_cycles (List.nodup_append'.mp hboth).1 horder hp)
  · obtain ⟨j, hj, ha⟩ := List.mem_map.mp hwaiting
    exact List.inj_on_of_nodup_map hn (h.kept hj) hi ha ▸ hj

end

end Emission

-- ---------------------------------------------------------------------------
-- Views
-- ---------------------------------------------------------------------------

namespace View

theorem arcs_addEdge (es : List Edge) (e : Edge) :
    arcs (addEdge es e) = if e.arc ∈ arcs es then arcs es else arcs es ++ [e.arc] := by
  have hany : es.any (·.joins e.source e.target) = true ↔ e.arc ∈ arcs es := by
    simp only [List.any_eq_true, Edge.joins_edge, arcs, List.mem_map]
  unfold addEdge
  split
  · rename_i hjoined
    rw [if_pos (hany.mp hjoined), arcs, List.map_map]
    refine List.map_congr_left fun k _ => ?_
    dsimp only [Function.comp]
    split <;> rfl
  · rename_i hnew
    rw [if_neg fun h => hnew (hany.mpr h), arcs, List.map_append]
    rfl

theorem step_addEdge {es : List Edge} {e : Edge} :
    Step (arcs (addEdge es e)) a b ↔ Step (arcs es) a b ∨ e.arc = (a, b) := by
  rw [arcs_addEdge]
  split
  · rename_i hmem
    refine ⟨.inl, fun h => h.elim id fun ha => ?_⟩
    rw [ha] at hmem
    exact hmem
  · simp [Step, eq_comm]

theorem step_ofEdges {nodes : List Identity} {es deferred : List Edge} :
    Step (arcs (ofEdges nodes es deferred).retained) a b ↔ Step (arcs es) a b := by
  show Step (arcs (es.foldl addEdge [])) a b ↔ _
  induction es using List.reverseRecOn with
  | nil => rfl
  | append_singleton es e ih =>
    rw [List.foldl_append, List.foldl_cons, List.foldl_nil, step_addEdge, ih]
    simp [Step, arcs, eq_comm]

theorem mem_ofEdges {nodes : List Identity} {es deferred : List Edge} :
    a ∈ (ofEdges nodes es deferred).nodes.map Identity.address ↔
      a ∈ nodes.map Identity.address ∨ ∃ e ∈ es, e.source.address = a ∨ e.target.address = a := by
  show a ∈ (distinctIdentities (nodes ++ es.flatMap fun e => [e.source, e.target])).map _ ↔ _
  rw [mem_distinctIdentities, List.map_append, List.mem_append, List.map_flatMap]
  simp [eq_comm]

theorem arcs_ofEdges_nodup {nodes : List Identity} {es deferred : List Edge} :
    (arcs (ofEdges nodes es deferred).retained).Nodup := by
  show (arcs (es.foldl addEdge [])).Nodup
  induction es using List.reverseRecOn with
  | nil => exact List.nodup_nil
  | append_singleton es e ih =>
    rw [List.foldl_append, List.foldl_cons, List.foldl_nil, arcs_addEdge]
    split
    · exact ih
    · rename_i hnew
      exact List.nodup_append'.mpr ⟨ih, List.nodup_singleton _, by simpa using hnew⟩

theorem simple_ofEdges (nodes : List Identity) (es deferred : List Edge) :
    Simple (ofEdges nodes es deferred).nodes (ofEdges nodes es deferred).retained := by
  refine ⟨distinctIdentities_nodup _, arcs_ofEdges_nodup, fun e he => ?_⟩
  obtain ⟨d, hd, hsource, htarget⟩ :=
    Digraph.step_iff.mp (step_ofEdges.mp (Digraph.step_of_mem he))
  exact ⟨mem_ofEdges.mpr (.inr ⟨d, hd, .inl hsource⟩), mem_ofEdges.mpr (.inr ⟨d, hd, .inr htarget⟩)⟩

variable {v : View} (hs : Simple v.nodes v.retained)
include hs

theorem mem_left_iff : i ∈ v.left (Emission.order v.nodes v.retained).1 ↔
    i ∈ (Emission.order v.nodes v.retained).2 := by
  have hemitted := Emission.order_emitted hs
  have hboth := hemitted.perm.nodup_iff.mpr hs.nodes_nodup
  have hmem := hemitted.perm.mem_iff (a := i.address)
  rw [List.map_append] at hboth hmem
  have hleft : i ∈ v.left (Emission.order v.nodes v.retained).1 ↔
      i ∈ v.nodes ∧ i.address ∉ (Emission.order v.nodes v.retained).1.map Identity.address := by
    simp [left, Identity.same_eq_false]
  rw [hleft]
  constructor
  · rintro ⟨hi, hnot⟩
    obtain ⟨j, hj, ha⟩ := List.mem_map.mp
      ((List.mem_append.mp (hmem.mpr (List.mem_map_of_mem hi))).resolve_left hnot)
    exact hs.eq_of_address (hemitted.kept hj) hi ha ▸ hj
  · intro hi
    refine ⟨hemitted.kept hi, fun horder => ?_⟩
    exact (List.nodup_append'.mp hboth).2.2 horder (List.mem_map_of_mem hi)

theorem stuck_left : v.Stuck (sortIdentities (v.left (Emission.order v.nodes v.retained).1)) := by
  refine ⟨fun i => ?_, ?_, sortOn_pairwise linearLe_sortKey _ _⟩
  · rw [sortIdentities, mem_sortOn, mem_left_iff hs]
    exact (Emission.order_emitted hs).mem_waiting_iff hs.nodes_nodup
  · exact ((sortOn_perm ..).map _).symm.nodup (hs.nodes_nodup.sublist (List.filter_sublist.map _))

theorem exists_waiting_iff :
    (Emission.order v.nodes v.retained).2 ≠ [] ↔ ∃ c, OnCycle (arcs v.retained) c := by
  have hemitted := Emission.order_emitted hs
  constructor
  · intro hne
    obtain ⟨i, hi⟩ := List.exists_mem_of_ne_nil _ hne
    obtain ⟨c, -, hc⟩ := hemitted.exists_cycle hi
    exact ⟨c, hc⟩
  · rintro ⟨c, hc⟩
    obtain ⟨b, hstep, -⟩ := hc.step
    obtain ⟨e, he, rfl, -⟩ := Digraph.step_iff.mp hstep
    obtain ⟨i, hi, ha⟩ := List.mem_map.mp (hs.ends_mem e he).1
    exact List.ne_nil_of_mem ((hemitted.mem_waiting_iff hs.nodes_nodup).mpr ⟨hi, _, ha ▸ .refl, hc⟩)

theorem emit_error (hu : v.Untied) : v.emit.result = .error fault ↔
    (∃ c, OnCycle (arcs v.retained) c) ∧
      fault = .unordered (sortIdentities (v.left (Emission.order v.nodes v.retained).1)) := by
  rw [emit_untied hs hu, ← exists_waiting_iff hs]
  split
  · rename_i hempty
    simp [hempty]
  · rename_i hleft
    simp [hleft, eq_comm]

end View

/-- Two objects of a queue have one rank and are not the same. -/
structure Emission.Tied (queue : List Identity) (i j : Identity) : Prop where
  left : i ∈ queue
  right : j ∈ queue
  rank : i.creationRank = j.creationRank
  other : i.address ≠ j.address

/-- Where no two objects of one rank wait together, emission fails for a view just where it
has a cycle, and reports the objects that depend on one. Elsewhere it fails for two such
objects that cannot be compared. That never happens to objects that readers report. Any
objects and edges make such a view. -/
theorem emit_unordered :
    (∀ v : View, Simple v.nodes v.retained → v.Untied →
      ((∃ remaining, v.emit.result = .error (.unordered remaining)) ↔
        ∃ c, OnCycle (arcs v.retained) c) ∧
      (∀ fault, v.emit.result = .error fault →
        ∃ remaining, fault = .unordered remaining ∧ v.Stuck remaining) ∧
      ∀ order, Emission.run v.nodes v.retained = .ok order →
        order = v.queues.filterMap Emission.least?) ∧
    (∀ v : View, Simple v.nodes v.retained →
      (¬ v.Untied ↔ ∃ queue ∈ v.queues, ∃ i j, Emission.Tied queue i j ∧
        v.emit.result = .error (.wrongShape .ordered (.text i.text)))) ∧
    (∀ v : View, Simple v.nodes v.retained →
      (∀ i ∈ v.nodes, ∃ raw : RawIdentity, raw.normalize = .ok i) → v.Untied) ∧
    ∀ nodes es deferred,
      Simple (View.ofEdges nodes es deferred).nodes (View.ofEdges nodes es deferred).retained ∧
      (∀ a, a ∈ (View.ofEdges nodes es deferred).nodes.map Identity.address ↔
        a ∈ nodes.map Identity.address ∨
          ∃ e ∈ es, e.source.address = a ∨ e.target.address = a) ∧
      ∀ a b, Step (arcs (View.ofEdges nodes es deferred).retained) a b ↔ Step (arcs es) a b := by
  refine ⟨fun v hs hu => ⟨?_, ?_, ?_⟩, fun v hs => ⟨?_, ?_⟩, fun v hs =>
    View.untied_of_normal hs.nodes_nodup, ?_⟩
  · simp only [View.emit_error hs hu]
    exact ⟨fun ⟨_, hcycle, _⟩ => hcycle, fun hcycle => ⟨_, hcycle, rfl⟩⟩
  · intro fault h
    exact ⟨_, ((View.emit_error hs hu).mp h).2, View.stuck_left hs⟩
  · intro order h
    exact ((Emission.run_follows hs).order order h).trans (Emission.emitFrom_queues ..)
  · intro hu
    obtain ⟨fault, hfault, queue, hqueue, i, hi, j, hj, hb⟩ := View.emit_tied hs hu
    obtain ⟨hrank, hother, rfl⟩ := Emission.before_eq_error.mp hb
    exact ⟨queue, hqueue, i, j, ⟨hi, hj, hrank, hother⟩, hfault⟩
  · rintro ⟨queue, hqueue, i, j, htied, -⟩ hu
    exact htied.other (congrArg _ (List.inj_on_of_nodup_map (hu queue hqueue) htied.left
      htied.right htied.rank))
  · intro nodes es deferred
    exact ⟨View.simple_ofEdges nodes es deferred, fun _ => View.mem_ofEdges,
      fun _ _ => View.step_ofEdges⟩

def looped : View :=
  .ofEdges [⟨.namespace, .name "app"⟩]
    [⟨⟨.view, .name "app.v"⟩, ⟨.table, .name "app.t"⟩, .structural⟩,
      ⟨⟨.table, .name "app.t"⟩, ⟨.table, .name "app.t"⟩, .referential⟩,
      ⟨⟨.table, .name "app.t"⟩, ⟨.type, .name "app.y"⟩, .structural⟩] []

def tied : View :=
  .ofEdges [⟨.table, .oid 5⟩, ⟨.table, .name "5"⟩] [] []

theorem emit_unordered_looped :
    (∃ remaining, looped.emit.result = .error (.unordered remaining) ∧
      remaining = [⟨.table, .name "app.t"⟩, ⟨.view, .name "app.v"⟩] ∧ looped.Stuck remaining ∧
      (∃ c, OnCycle (arcs looped.retained) c) ∧ looped.Untied) ∧
    ∃ i : Identity, tied.emit.result = .error (.wrongShape .ordered (.text i.text)) := by
  obtain ⟨hviews, hties, hnormal, hmade⟩ := emit_unordered
  refine ⟨?_, ?_⟩
  · have hs : Simple looped.nodes looped.retained := (hmade _ _ _).1
    have hread : ∀ i ∈ looped.nodes, (RawIdentity.normalize
        ⟨.known i.kind, .null, .text "", .text i.key.text⟩).toOption = some i := by decide +kernel
    have huntied : looped.Untied :=
      hnormal looped hs fun i hi => ⟨_, toOption_eq_some.mp (hread i hi)⟩
    have hrun : looped.emit.result =
        .error (.unordered [⟨.table, .name "app.t"⟩, ⟨.view, .name "app.v"⟩]) :=
      View.emit_untied hs huntied
    obtain ⟨hcycle, hstuck, -⟩ := hviews looped hs huntied
    obtain ⟨remaining, heq, hremaining⟩ := hstuck _ hrun
    obtain rfl := Fault.unordered.inj heq
    exact ⟨_, hrun, rfl, hremaining, hcycle.mp ⟨_, hrun⟩, huntied⟩
  · have hs : Simple tied.nodes tied.retained := (hmade _ _ _).1
    have htie : ¬ tied.Untied := fun hu => absurd (hu tied.nodes (by decide)) (by decide)
    obtain ⟨-, -, i, -, -, hfault⟩ := (hties tied hs).mp htie
    exact ⟨i, hfault⟩

end CatalogPlan
