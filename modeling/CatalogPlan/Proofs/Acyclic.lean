import CatalogPlan.Proofs.Event
import CatalogPlan.Proofs.Identity

/-!
# Cycle breaking leaves no cycle

Going through the references of a class, one is deferred when its ends still
lie on a cycle; the ones that stay are then on no cycle, then or later. What is
left is free of cycles once the edges that cannot be deferred are. Every cycle
of a graph lies within one class, so this holds of the whole graph.
-/

namespace CatalogPlan.Acyclic

open Reach (Path Step OnCycle Mutual classOf)

-- ---------------------------------------------------------------------------
-- The candidates of one class
-- ---------------------------------------------------------------------------

theorem deferFrom_cons (es : List Edge) (e : Edge) (rest : List Edge) :
    deferFrom es (e :: rest) =
      if Reach.reaches (arcs es) e.target.address e.source.address then
        ((deferFrom (es.filter fun k => !k.joins e.source e.target) rest).1,
          e :: (deferFrom (es.filter fun k => !k.joins e.source e.target) rest).2)
      else deferFrom es rest := rfl

theorem deferFrom_sublist (es cs : List Edge) : (deferFrom es cs).2.Sublist cs := by
  induction cs generalizing es with
  | nil => exact .slnil
  | cons e rest ih =>
    rw [deferFrom_cons]
    split
    · exact (ih _).cons_cons e
    · exact (ih _).cons e

theorem deferFrom_fst (es cs : List Edge) : (deferFrom es cs).1 =
    es.filter fun e => !(deferFrom es cs).2.any fun d => e.joins d.source d.target := by
  induction cs generalizing es with
  | nil => simp [deferFrom]
  | cons c rest ih =>
    rw [deferFrom_cons]
    split
    · simp only [List.any_cons, Bool.not_or]
      rw [ih, List.filter_filter]
      exact List.filter_congr fun e _ => Bool.and_comm ..
    · exact ih es

theorem mem_deferFrom_fst {es cs : List Edge} :
    e ∈ (deferFrom es cs).1 ↔ e ∈ es ∧ ∀ d ∈ (deferFrom es cs).2, e.arc ≠ d.arc := by
  rw [deferFrom_fst, List.mem_filter]
  simp only [Bool.not_eq_true', List.any_eq_false, Edge.joins_edge, ne_eq]

theorem arcs_mono {es ds : List Edge} (h : es ⊆ ds) : arcs es ⊆ arcs ds :=
  List.map_subset _ h

theorem deferFrom_subset (es cs : List Edge) : (deferFrom es cs).1 ⊆ es :=
  fun _ he => (mem_deferFrom_fst.mp he).1

theorem deferFrom_off_cycle {es cs : List Edge} (he : e ∈ cs) (hk : e ∈ (deferFrom es cs).1) :
    ¬ Path (arcs (deferFrom es cs).1) e.target.address e.source.address := by
  induction cs generalizing es with
  | nil => simp at he
  | cons c rest ih =>
    rw [deferFrom_cons] at hk ⊢
    split at hk
    · rename_i hr
      rw [if_pos hr]
      rcases List.mem_cons.mp he with rfl | he
      · have hm := deferFrom_subset _ _ hk
        rw [List.mem_filter, Edge.joins_edge.mpr rfl] at hm
        exact absurd hm.2 (by simp)
      · exact ih he hk
    · rename_i hr
      rw [if_neg hr]
      rcases List.mem_cons.mp he with rfl | he
      · intro hp
        exact hr (Reach.reaches_iff.mpr (hp.mono (arcs_mono (deferFrom_subset es rest))))
      · exact ih he hk

def fixed (es : List Edge) : List Edge :=
  es.filter fun e => !e.edgeClass.deferrable

theorem mem_fixed {es : List Edge} : e ∈ fixed es ↔ e ∈ es ∧ e.edgeClass.deferrable = false := by
  simp [fixed]

theorem mem_candidates {es : List Edge} :
    e ∈ candidates es ↔ e ∈ es ∧ e.edgeClass.deferrable = true := by
  simp only [candidates, sortEdges, List.mem_reverse, mem_sortOn, List.mem_filter]
  cases e.edgeClass <;> simp [EdgeClass.deferrable]

/-- Once every candidate has been tried, only edges that cannot be deferred
could close a path. -/
theorem acyclic_deferFrom {es : List Edge} (h : Reach.Acyclic (arcs (fixed es))) :
    Reach.Acyclic (arcs (deferFrom es (candidates es)).1) := by
  intro a hc
  refine h a (OnCycle.restrict hc ?_)
  intro x y hax hs hya
  obtain ⟨e, he, rfl, rfl⟩ := Digraph.step_iff.mp hs
  refine Digraph.step_of_mem (mem_fixed.mpr ⟨deferFrom_subset _ _ he, ?_⟩)
  rw [← Bool.not_eq_true]
  intro hd
  exact deferFrom_off_cycle (mem_candidates.mpr ⟨deferFrom_subset _ _ he, hd⟩) he (hya.trans hax)

-- ---------------------------------------------------------------------------
-- Classes of objects
-- ---------------------------------------------------------------------------

section
variable {nodes : List Identity} {es : List Edge}

theorem mem_members {points : List Address} :
    i ∈ members nodes points ↔ i ∈ nodes ∧ i.address ∈ points := by
  simp [members, sortIdentities]

def memberClass (nodes : List Identity) (es : List Edge) (i : Identity) : List Identity :=
  members nodes (classOf (arcs es) (nodes.map Identity.address) i.address)

theorem mem_memberClass :
    j ∈ memberClass nodes es i ↔ j ∈ nodes ∧ Mutual (arcs es) i.address j.address := by
  rw [memberClass, mem_members, Reach.mem_classOf]
  exact ⟨fun h => ⟨h.1, h.2.2⟩, fun h => ⟨h.1, List.mem_map_of_mem h.1, h.2⟩⟩

theorem memberClass_eq (h : Mutual (arcs es) i.address j.address) :
    memberClass nodes es i = memberClass nodes es j := by
  rw [memberClass, memberClass, Reach.classOf_eq h]

theorem mem_components {component : List Identity} (hd : Digraph nodes es) :
    component ∈ components nodes es ↔
      ∃ i ∈ nodes, OnCycle (arcs es) i.address ∧ component = memberClass nodes es i := by
  have hcycle : ∀ i ∈ nodes, 1 < (classOf (arcs es) (nodes.map Identity.address) i.address).length ↔
      OnCycle (arcs es) i.address := by
    intro i hi
    have hp : i.address ∈ nodes.map Identity.address := List.mem_map_of_mem hi
    rw [← Reach.mem_flatten_cyclicComponents hd.nodes_nodup (fun _ _ hs => hd.step_ends hs)
      hd.not_step_self, List.mem_flatten]
    constructor
    · intro hlen
      exact ⟨_, Reach.mem_cyclicComponents.mpr ⟨_, hp, rfl, hlen⟩,
        Reach.mem_classOf.mpr ⟨hp, .refl ..⟩⟩
    · rintro ⟨c, hc, hi⟩
      obtain ⟨a, -, rfl, hlen⟩ := Reach.mem_cyclicComponents.mp hc
      rwa [← Reach.classOf_eq (Reach.mem_classOf.mp hi).2]
  simp only [components, mem_sortOn, List.mem_map, Reach.mem_cyclicComponents]
  constructor
  · rintro ⟨_, ⟨_, ⟨i, hi, rfl⟩, rfl, hlen⟩, rfl⟩
    exact ⟨i, hi, (hcycle i hi).mp hlen, rfl⟩
  · rintro ⟨i, hi, hc, rfl⟩
    exact ⟨_, ⟨_, ⟨i, hi, rfl⟩, rfl, (hcycle i hi).mpr hc⟩, rfl⟩

theorem components_disjoint (hd : Digraph nodes es) :
    (components nodes es).Pairwise List.Disjoint := by
  have hinj : ∀ c ∈ Reach.cyclicComponents (arcs es) (nodes.map Identity.address),
      ∀ d ∈ Reach.cyclicComponents (arcs es) (nodes.map Identity.address),
        members nodes c = members nodes d → c = d := by
    intro c hc d hd' h
    obtain ⟨a, ha, rfl, -⟩ := Reach.mem_cyclicComponents.mp hc
    obtain ⟨b, hb, rfl, -⟩ := Reach.mem_cyclicComponents.mp hd'
    obtain ⟨i, hi, rfl⟩ := List.mem_map.mp ha
    have hm : i ∈ members nodes (classOf (arcs es) (nodes.map Identity.address) b) :=
      h ▸ mem_members.mpr ⟨hi, Reach.mem_classOf.mpr ⟨ha, .refl ..⟩⟩
    exact Reach.classOf_eq (Reach.mem_classOf.mp (mem_members.mp hm).2).2.symm
  have hnodup : (components nodes es).Nodup :=
    (sortOn_perm ..).symm.nodup ((Reach.nodup_cyclicComponents ..).map_on hinj)
  refine hnodup.pairwise_of_forall_ne ?_
  intro c hc d hd' hne i hic hid
  obtain ⟨a, -, -, rfl⟩ := (mem_components hd).mp hc
  obtain ⟨b, -, -, rfl⟩ := (mem_components hd).mp hd'
  exact hne (memberClass_eq ((mem_memberClass.mp hic).2.trans (mem_memberClass.mp hid).2.symm))

theorem memberClass_addresses_nodup (hd : Digraph nodes es) (i : Identity) :
    ((memberClass nodes es i).map Identity.address).Nodup := by
  refine List.Perm.nodup ((sortOn_perm ..).map _).symm ?_
  exact hd.nodes_nodup.sublist (List.filter_sublist.map _)

theorem memberClass_mem_components (hd : Digraph nodes es) (h : OnCycle (arcs es) a) :
    ∃ i ∈ nodes, i.address = a ∧ memberClass nodes es i ∈ components nodes es := by
  obtain ⟨b, hs, -⟩ := OnCycle.step h
  obtain ⟨i, hi, rfl⟩ := List.mem_map.mp (hd.step_ends hs).1
  exact ⟨i, hi, rfl, (mem_components hd).mpr ⟨i, hi, h, rfl⟩⟩

-- ---------------------------------------------------------------------------
-- The edges of one class
-- ---------------------------------------------------------------------------

def own (es : List Edge) (component : List Identity) : List Edge :=
  es.filter (·.inside (component.map (·.address)))

theorem own_sublist (es : List Edge) (component : List Identity) : (own es component).Sublist es :=
  List.filter_sublist

theorem mem_own_memberClass (hd : Digraph nodes es) : e ∈ own es (memberClass nodes es i) ↔
    e ∈ es ∧ Mutual (arcs es) i.address e.source.address ∧
      Mutual (arcs es) i.address e.target.address := by
  have hmem : ∀ j ∈ nodes, j.address ∈ (memberClass nodes es i).map Identity.address ↔
      Mutual (arcs es) i.address j.address := by
    intro j hj
    simp only [List.mem_map, mem_memberClass]
    constructor
    · rintro ⟨k, ⟨-, hk⟩, hkj⟩
      rwa [← hkj]
    · intro h
      exact ⟨j, ⟨hj, h⟩, rfl⟩
  simp only [own, List.mem_filter, Edge.inside_iff]
  constructor
  · rintro ⟨he, hs, ht⟩
    exact ⟨he, (hmem _ (hd.source_mem e he)).mp hs, (hmem _ (hd.target_mem e he)).mp ht⟩
  · rintro ⟨he, hs, ht⟩
    exact ⟨he, (hmem _ (hd.source_mem e he)).mpr hs, (hmem _ (hd.target_mem e he)).mpr ht⟩

theorem mem_own_of_path (hd : Digraph nodes es) (he : e ∈ es)
    (hfrom : Path (arcs es) i.address e.source.address)
    (hback : Path (arcs es) e.target.address i.address) : e ∈ own es (memberClass nodes es i) := by
  have hs := Digraph.step_of_mem he
  exact (mem_own_memberClass hd).mpr ⟨he, ⟨hfrom, hback.head hs⟩, hfrom.tail hs, hback⟩

/-- The edges that cannot be deferred close a cycle within a class where they close
one of the whole graph. -/
theorem onCycle_fixed_own (hd : Digraph nodes es) :
    OnCycle (arcs (fixed (own es (memberClass nodes es i)))) a ↔
      Mutual (arcs es) i.address a ∧ OnCycle (arcs (fixed es)) a := by
  have hsub : arcs (fixed es) ⊆ arcs es := arcs_mono List.filter_sublist.subset
  constructor
  · intro h
    obtain ⟨b, hs, -⟩ := OnCycle.step h
    obtain ⟨e, he, rfl, rfl⟩ := Digraph.step_iff.mp hs
    have hown := (mem_own_memberClass hd).mp (mem_fixed.mp he).1
    refine ⟨hown.2.1, OnCycle.mono (arcs_mono ?_) h⟩
    exact ((own_sublist ..).filter _).subset
  · rintro ⟨hm, h⟩
    refine OnCycle.restrict h ?_
    intro x y hax hs hya
    obtain ⟨e, he, rfl, rfl⟩ := Digraph.step_iff.mp hs
    obtain ⟨hmem, hclass⟩ := mem_fixed.mp he
    have hown := mem_own_of_path hd hmem (hm.1.trans (hax.mono hsub)) ((hya.mono hsub).trans hm.2)
    exact Digraph.step_of_mem (mem_fixed.mpr ⟨hown, hclass⟩)

def trapped (component : List Identity) (es : List Edge) : List Address :=
  (Reach.cyclicComponents (arcs (fixed es)) (component.map (·.address))).flatten

theorem mem_trapped (hd : Digraph nodes es) :
    a ∈ trapped (memberClass nodes es i) (own es (memberClass nodes es i)) ↔
      OnCycle (arcs (fixed (own es (memberClass nodes es i)))) a := by
  have hsub : (fixed (own es (memberClass nodes es i))).Sublist es :=
    List.filter_sublist.trans (own_sublist ..)
  refine Reach.mem_flatten_cyclicComponents (memberClass_addresses_nodup hd i) ?_
    (hd.sublist hsub).not_step_self
  intro x y hs
  obtain ⟨e, he, rfl, rfl⟩ := Digraph.step_iff.mp hs
  exact Edge.inside_iff.mp (List.mem_filter.mp (mem_fixed.mp he).1).2

theorem fixedCycle?_eq (component : List Identity) (es : List Edge) :
    fixedCycle? component es = if (trapped component es).isEmpty then none
      else some (.unbreakable (members component (trapped component es))
        (sortEdges ((fixed es).filter (·.inside (trapped component es))))) := rfl

theorem fixedCycle?_eq_none (hd : Digraph nodes es) (i : Identity) :
    fixedCycle? (memberClass nodes es i) (own es (memberClass nodes es i)) = none ↔
      Reach.Acyclic (arcs (fixed (own es (memberClass nodes es i)))) := by
  simp only [fixedCycle?_eq, ite_eq_left_iff, reduceCtorEq, imp_false, not_not,
    List.isEmpty_iff, List.eq_nil_iff_forall_not_mem]
  exact forall_congr' fun a => not_congr (mem_trapped hd)

theorem fixedCycle?_eq_some {component : List Identity} (h : fixedCycle? component es = some fault) :
    trapped component es ≠ [] ∧
      fault = .unbreakable (members component (trapped component es))
        (sortEdges ((fixed es).filter (·.inside (trapped component es)))) := by
  simp only [fixedCycle?_eq, Option.ite_none_left_eq_some, Option.some.injEq,
    List.isEmpty_iff] at h
  exact ⟨h.1, h.2.symm⟩

end

-- ---------------------------------------------------------------------------
-- The whole graph
-- ---------------------------------------------------------------------------

def deferredOf (es : List Edge) (component : List Identity) : List Edge :=
  (deferFrom (own es component) (candidates (own es component))).2

theorem breakComponent_result (es : List Edge) (component : List Identity) :
    (breakComponent es component).result =
      (fixedCycle? component (own es component)).elim (.ok (deferredOf es component)) .error := by
  cases h : fixedCycle? component (own es component) with
  | some fault =>
    unfold own at h
    rw [breakComponent, h]
    rfl
  | none =>
    unfold own at h
    rw [breakComponent, h]
    show Traced.result ((deferredOf es component).forM (fun e => Traced.emit (.edgeDeferred e)) >>=
      fun _ => pure (deferredOf es component)) = _
    rw [Traced.result_bind, Traced.forM_emit_result]
    rfl

end CatalogPlan.Acyclic

namespace CatalogPlan

open Acyclic

def Graph.deferredEdges (g : Graph) : List Edge :=
  ((components g.nodes g.edges).map (deferredOf g.edges)).flatten

def Graph.brokenView (g : Graph) : View :=
  ⟨g.nodes, g.edges.filter fun e => !g.deferredEdges.any fun d => e.joins d.source d.target,
    g.deferredEdges⟩

/-- The first class with a fault decides; without one every class gives up its
deferred edges. -/
theorem Graph.breakCycles_result (g : Graph) :
    g.breakCycles.result =
      ((components g.nodes g.edges).findSome? fun c => fixedCycle? c (own g.edges c)).elim
        (.ok g.brokenView) .error := by
  unfold breakCycles
  simp only [Traced.result_bind, Traced.mapM_result]
  rw [mapM_findSome? (fun c => fixedCycle? c (own g.edges c)) (deferredOf g.edges)
    (breakComponent_result g.edges)]
  cases h : (components g.nodes g.edges).findSome? fun c => fixedCycle? c (own g.edges c) with
  | some fault => rfl
  | none =>
    simp only [Option.elim_none, Except.bind]
    split <;> rfl

namespace Graph

variable {g : Graph}

theorem mem_deferredOf {es : List Edge} {component : List Identity}
    (h : d ∈ deferredOf es component) : d ∈ own es component ∧ d.edgeClass.deferrable = true :=
  mem_candidates.mp ((deferFrom_sublist ..).subset h)

theorem mem_deferredEdges :
    d ∈ g.deferredEdges ↔ ∃ c ∈ components g.nodes g.edges, d ∈ deferredOf g.edges c := by
  simp [deferredEdges]

theorem deferredEdges_subset (h : d ∈ g.deferredEdges) :
    d ∈ g.edges ∧ d.edgeClass.deferrable = true := by
  obtain ⟨c, -, hd⟩ := mem_deferredEdges.mp h
  obtain ⟨hown, hclass⟩ := mem_deferredOf hd
  exact ⟨(own_sublist ..).subset hown, hclass⟩

theorem source_mem_component (hd : Digraph g.nodes g.edges) {component : List Identity}
    (hc : component ∈ components g.nodes g.edges) (he : e ∈ own g.edges component) :
    e.source ∈ component := by
  obtain ⟨i, -, -, rfl⟩ := (mem_components hd).mp hc
  obtain ⟨hm, hs, -⟩ := (mem_own_memberClass hd).mp he
  exact mem_memberClass.mpr ⟨hd.source_mem e hm, hs⟩

theorem deferredEdges_nodup (hd : Digraph g.nodes g.edges) : g.deferredEdges.Nodup := by
  refine List.nodup_flatten.mpr ⟨?_, ?_⟩
  · intro ds hds
    obtain ⟨c, -, rfl⟩ := List.mem_map.mp hds
    refine List.Nodup.sublist (deferFrom_sublist ..) (List.nodup_reverse.mpr ?_)
    refine (sortOn_perm ..).symm.nodup ?_
    exact hd.edges_nodup.sublist (List.filter_sublist.trans (own_sublist ..))
  · refine List.pairwise_map.mpr ((components_disjoint hd).imp_of_mem ?_)
    intro b c hb hc hdis e heb hec
    exact hdis (source_mem_component hd hb (mem_deferredOf heb).1)
      (source_mem_component hd hc (mem_deferredOf hec).1)

theorem deferredEdges_arcs_nodup (hd : Digraph g.nodes g.edges) :
    (g.deferredEdges.map Edge.arc).Nodup := by
  refine (List.nodup_map_iff_inj_on (deferredEdges_nodup hd)).mpr fun e he d hm ha => ?_
  exact hd.eq_of_arc (deferredEdges_subset he).1 (deferredEdges_subset hm).1 ha

theorem deferredEdges_referential (h : d ∈ g.deferredEdges) : d.edgeClass = .referential := by
  have hclass := (deferredEdges_subset h).2
  cases hc : d.edgeClass with
  | referential => rfl
  | structural => simp [hc, EdgeClass.deferrable] at hclass
  | ownership => simp [hc, EdgeClass.deferrable] at hclass

theorem mem_retained (hd : Digraph g.nodes g.edges) :
    e ∈ g.brokenView.retained ↔ e ∈ g.edges ∧ e ∉ g.deferredEdges := by
  simp only [brokenView, List.mem_filter, Bool.not_eq_true', List.any_eq_false, Edge.joins_edge]
  constructor
  · rintro ⟨he, h⟩
    exact ⟨he, fun hm => h e hm rfl⟩
  · rintro ⟨he, h⟩
    refine ⟨he, fun d hm ha => h ?_⟩
    rwa [hd.eq_of_arc he (deferredEdges_subset hm).1 ha]

theorem brokenView_digraph (hd : Digraph g.nodes g.edges) :
    Digraph g.brokenView.nodes g.brokenView.retained :=
  hd.sublist List.filter_sublist

/-- Every cycle lies within one class, whose references that stay are on none. -/
theorem brokenView_acyclic (hd : Digraph g.nodes g.edges)
    (hfix : ∀ c ∈ components g.nodes g.edges, fixedCycle? c (own g.edges c) = none) :
    Reach.Acyclic (arcs g.brokenView.retained) := by
  intro a hc
  have hsub : arcs g.brokenView.retained ⊆ arcs g.edges := arcs_mono List.filter_sublist.subset
  obtain ⟨i, -, rfl, hcomp⟩ := memberClass_mem_components hd (Reach.OnCycle.mono hsub hc)
  have hfixed := (fixedCycle?_eq_none hd i).mp (hfix _ hcomp)
  -- An edge of the cycle is one of the class of `i`, and the class did not defer it.
  refine acyclic_deferFrom hfixed i.address (Reach.OnCycle.restrict hc ?_)
  intro x y hix hs hyi
  obtain ⟨e, he, rfl, rfl⟩ := Digraph.step_iff.mp hs
  obtain ⟨hm, hnot⟩ := (mem_retained hd).mp he
  refine Digraph.step_of_mem (mem_deferFrom_fst.mpr ⟨?_, ?_⟩)
  · exact mem_own_of_path hd hm (hix.mono hsub) (hyi.mono hsub)
  · intro d hdef ha
    have hd' : d ∈ g.deferredEdges := mem_deferredEdges.mpr ⟨_, hcomp, hdef⟩
    exact hnot (hd.eq_of_arc hm (deferredEdges_subset hd').1 ha ▸ hd')

/-- No class has a fault exactly when the edges that cannot be deferred form no
cycle at all. -/
theorem fixedCycle?_none_iff (hd : Digraph g.nodes g.edges) :
    (∀ c ∈ components g.nodes g.edges, fixedCycle? c (own g.edges c) = none) ↔
      Reach.Acyclic (arcs (fixed g.edges)) := by
  constructor
  · intro h a hc
    have hsub : arcs (fixed g.edges) ⊆ arcs g.edges := arcs_mono List.filter_sublist.subset
    obtain ⟨i, -, rfl, hcomp⟩ := memberClass_mem_components hd (Reach.OnCycle.mono hsub hc)
    exact (fixedCycle?_eq_none hd i).mp (h _ hcomp) _ ((onCycle_fixed_own hd).mpr ⟨.refl .., hc⟩)
  · intro h c hc
    obtain ⟨i, -, -, rfl⟩ := (mem_components hd).mp hc
    exact (fixedCycle?_eq_none hd i).mpr fun a ha => h a ((onCycle_fixed_own hd).mp ha).2

theorem breakCycles_ok (hd : Digraph g.nodes g.edges) : g.breakCycles.result = .ok v ↔
    Reach.Acyclic (arcs (fixed g.edges)) ∧ v = g.brokenView := by
  rw [breakCycles_result, ← fixedCycle?_none_iff hd, ← List.findSome?_eq_none_iff]
  cases (components g.nodes g.edges).findSome? fun c => fixedCycle? c (own g.edges c) with
  | none => simp [eq_comm]
  | some fault => simp

theorem breakCycles_view (hd : Digraph g.nodes g.edges) (h : g.breakCycles.result = .ok v) :
    v = g.brokenView ∧ Digraph v.nodes v.retained ∧ Reach.Acyclic (arcs v.retained) := by
  obtain ⟨hf, rfl⟩ := (breakCycles_ok hd).mp h
  exact ⟨rfl, brokenView_digraph hd, brokenView_acyclic hd ((fixedCycle?_none_iff hd).mpr hf)⟩

theorem breakCycles_error (h : g.breakCycles.result = .error fault) :
    ∃ identities edges, fault = .unbreakable identities edges := by
  rw [breakCycles_result] at h
  cases hf : (components g.nodes g.edges).findSome? fun c => fixedCycle? c (own g.edges c) with
  | none => simp [hf] at h
  | some found =>
    obtain ⟨c, -, hc⟩ := List.exists_of_findSome?_eq_some hf
    obtain rfl : found = fault := by simpa [hf] using h
    exact ⟨_, _, (fixedCycle?_eq_some hc).2⟩

theorem breakCycles_unbreakable (hd : Digraph g.nodes g.edges) :
    (∃ identities edges, g.breakCycles.result = .error (.unbreakable identities edges)) ↔
      ¬ Reach.Acyclic (arcs (fixed g.edges)) := by
  constructor
  · rintro ⟨identities, edges, h⟩ hacyclic
    rw [(breakCycles_ok hd).mpr ⟨hacyclic, rfl⟩] at h
    cases h
  · intro hcyclic
    cases h : g.breakCycles.result with
    | ok v => exact absurd ((breakCycles_ok hd).mp h).1 hcyclic
    | error fault =>
      obtain ⟨identities, edges, rfl⟩ := breakCycles_error h
      exact ⟨identities, edges, rfl⟩

end Graph

end CatalogPlan
