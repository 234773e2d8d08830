import CatalogPlan.Proofs.Classes

/-!
# Plans do not depend on the order of objects and edges

Two graphs with the same objects and the same edges, listed in whatever order,
have the same classes of mutually dependent objects, defer the same references
in the same order and are emitted alike.
-/

namespace CatalogPlan

open Acyclic (arcs fixed)
open Reach (Step)

def Edge.ends (e : Edge) : Identity × Identity :=
  (e.source, e.target)

theorem step_ends_iff {es : List Edge} {s t : Identity} :
    Step (es.map Edge.ends) s t ↔ ∃ e ∈ es, e.source = s ∧ e.target = t := by
  simp [Step, Edge.ends]

section
variable {nodes nodes' : List Identity} {es es' : List Edge}

theorem arcs_perm (he : es.Perm es') : (arcs es).Perm (arcs es') :=
  he.map _

theorem path_congr (he : es.Perm es') : Reach.Path (arcs es) a b ↔ Reach.Path (arcs es') a b :=
  ⟨fun h => Reach.Path.mono (arcs_perm he).subset h,
    fun h => Reach.Path.mono (arcs_perm he).symm.subset h⟩

theorem reaches_congr (he : es.Perm es') (a b : Address) :
    Reach.reaches (arcs es) a b = Reach.reaches (arcs es') a b := by
  rw [Bool.eq_iff_iff, Reach.reaches_iff, Reach.reaches_iff, path_congr he]

theorem onCycle_congr (he : es.Perm es') :
    Reach.OnCycle (arcs es) a ↔ Reach.OnCycle (arcs es') a :=
  ⟨fun h => Reach.OnCycle.mono (arcs_perm he).subset h,
    fun h => Reach.OnCycle.mono (arcs_perm he).symm.subset h⟩

theorem acyclic_congr (he : es.Perm es') :
    Reach.Acyclic (arcs es) ↔ Reach.Acyclic (arcs es') :=
  forall_congr' fun _ => not_congr (onCycle_congr he)

theorem mutual_congr (he : es.Perm es') :
    Reach.Mutual (arcs es) a b ↔ Reach.Mutual (arcs es') a b :=
  and_congr (path_congr he) (path_congr he)

-- ---------------------------------------------------------------------------
-- Cycle breaking
-- ---------------------------------------------------------------------------

namespace Acyclic

theorem deferFrom_congr (he : es.Perm es') (cs : List Edge) :
    (deferFrom es cs).2 = (deferFrom es' cs).2 := by
  induction cs generalizing es es' with
  | nil => rfl
  | cons e rest ih =>
    rw [deferFrom_cons, deferFrom_cons, reaches_congr he]
    split
    · exact congrArg (e :: ·) (ih (he.filter _))
    · exact ih he

theorem candidates_congr (hd : Digraph nodes es) (he : es.Perm es') :
    candidates es = candidates es' := by
  refine congrArg List.reverse (sortOn_congr linearLe_edgeKey ?_ (he.filter _))
  intro e hm d hm' hk
  exact hd.eq_of_edgeKey e (List.mem_filter.mp hm).1 d (List.mem_filter.mp hm').1 hk

theorem deferredOf_congr (hd : Digraph nodes es) (he : es.Perm es') (component : List Identity) :
    deferredOf es component = deferredOf es' component := by
  have hown : (own es component).Perm (own es' component) := he.filter _
  unfold deferredOf
  rw [deferFrom_congr hown, candidates_congr (hd.sublist (own_sublist ..)) hown]

theorem memberClass_eq_of_mem (hd : Digraph nodes es) (hd' : Digraph nodes' es')
    (h : ∀ j, j ∈ memberClass nodes es i ↔ j ∈ memberClass nodes' es' i) :
    memberClass nodes es i = memberClass nodes' es' i := by
  refine sortOn_unique linearLe_sortKey ?_ ?_ (sortOn_pairwise linearLe_sortKey _ _)
  · intro j hj k hk
    exact hd.eq_of_sortKey j (List.mem_filter.mp hj).1 k (List.mem_filter.mp hk).1
  · refine (sortOn_perm _ _ _).symm.trans ((List.perm_ext_iff_of_nodup ?_ ?_).mpr h)
    · exact (memberClass_addresses_nodup hd i).of_map _
    · exact (memberClass_addresses_nodup hd' i).of_map _

theorem memberClass_congr (hd : Digraph nodes es) (hn : nodes.Perm nodes') (he : es.Perm es')
    (i : Identity) : memberClass nodes es i = memberClass nodes' es' i := by
  refine memberClass_eq_of_mem hd (hd.perm hn he) fun j => ?_
  rw [mem_memberClass, mem_memberClass, hn.mem_iff, mutual_congr he]

theorem components_head_inj (hd : Digraph nodes es) {c d : List Identity}
    (hc : c ∈ components nodes es) (hm : d ∈ components nodes es)
    (hk : (c.head?.map Identity.sortKey).getD ("", "") = (d.head?.map Identity.sortKey).getD ("", "")) :
    c = d := by
  obtain ⟨i, hi, -, rfl⟩ := (mem_components hd).mp hc
  obtain ⟨j, hj, -, rfl⟩ := (mem_components hd).mp hm
  obtain ⟨a, ha, hia, hhead⟩ := exists_leads es hi
  obtain ⟨b, hb, hjb, hhead'⟩ := exists_leads es hj
  simp only [hhead, hhead', Option.map_some, Option.getD_some] at hk
  obtain rfl := hd.eq_of_sortKey a ha.mem b hb.mem hk
  exact memberClass_eq (hia.trans hjb.symm)

theorem components_nodup (hd : Digraph nodes es) : (components nodes es).Nodup := by
  refine (components_disjoint hd).imp_of_mem fun hc _ hdis heq => ?_
  obtain ⟨i, hi, -, rfl⟩ := (mem_components hd).mp hc
  exact hdis (mem_memberClass.mpr ⟨hi, .refl ..⟩) (heq ▸ mem_memberClass.mpr ⟨hi, .refl ..⟩)

theorem components_eq_of_mem (hd : Digraph nodes es) (hd' : Digraph nodes' es')
    (h : ∀ c, c ∈ components nodes es ↔ c ∈ components nodes' es') :
    components nodes es = components nodes' es' := by
  have hsorted := sortOn_pairwise linearLe_sortKey
    (fun c : List Identity => (c.head?.map Identity.sortKey).getD ("", ""))
  refine sortOn_unique linearLe_sortKey ?_ ?_ (hsorted _)
  · intro c hc d hm
    exact components_head_inj hd (mem_sortOn.mpr hc) (mem_sortOn.mpr hm)
  · exact (sortOn_perm _ _ _).symm.trans
      ((List.perm_ext_iff_of_nodup (components_nodup hd) (components_nodup hd')).mpr h)

theorem components_congr (hd : Digraph nodes es) (hn : nodes.Perm nodes') (he : es.Perm es') :
    components nodes es = components nodes' es' := by
  refine components_eq_of_mem hd (hd.perm hn he) fun c => ?_
  rw [mem_components hd, mem_components (hd.perm hn he)]
  simp only [hn.mem_iff, onCycle_congr he, memberClass_congr hd hn he]

end Acyclic

-- ---------------------------------------------------------------------------
-- Emission
-- ---------------------------------------------------------------------------

theorem Closed.congr (hc : Closed nodes es) (hn : nodes.Perm nodes')
    (hs : ∀ i j, Step (es.map Edge.ends) i j ↔ Step (es'.map Edge.ends) i j) : Closed nodes' es' := by
  have hedge : ∀ e ∈ es', e.source ∈ nodes ∧ e.target ∈ nodes := by
    intro e he
    obtain ⟨d, hd, hsource, htarget⟩ :=
      step_ends_iff.mp ((hs _ _).mpr (step_ends_iff.mpr ⟨e, he, rfl, rfl⟩))
    exact ⟨hsource ▸ hc.source_mem d hd, htarget ▸ hc.target_mem d hd⟩
  exact ⟨(hn.map _).nodup hc.nodes_nodup, fun e he => hn.mem_iff.mp (hedge e he).1,
    fun e he => hn.mem_iff.mp (hedge e he).2⟩

namespace Emission

theorem step_rest (hs : ∀ i j, Step (es.map Edge.ends) i j ↔ Step (es'.map Edge.ends) i j)
    (k i j : Identity) : Step ((es.filter fun e => !e.target.same k).map Edge.ends) i j ↔
      Step ((es'.filter fun e => !e.target.same k).map Edge.ends) i j := by
  have hrest : ∀ es : List Edge, Step ((es.filter fun e => !e.target.same k).map Edge.ends) i j ↔
      Step (es.map Edge.ends) i j ∧ (!j.same k) = true := by
    intro es
    simp only [step_ends_iff, List.mem_filter]
    constructor
    · rintro ⟨e, ⟨he, hk⟩, rfl, rfl⟩
      exact ⟨⟨e, he, rfl, rfl⟩, hk⟩
    · rintro ⟨⟨e, he, rfl, rfl⟩, hk⟩
      exact ⟨e, ⟨he, hk⟩, rfl, rfl⟩
  rw [hrest, hrest, hs]

theorem ready_congr (hn : nodes.Perm nodes')
    (hs : ∀ i j, Step (es.map Edge.ends) i j ↔ Step (es'.map Edge.ends) i j) :
    (ready nodes es).Perm (ready nodes' es') := by
  have hany : ∀ (es : List Edge) (i : Identity), es.any (·.source.same i) = true ↔
      ∃ s t, Step (es.map Edge.ends) s t ∧ s.same i = true := by
    intro es i
    simp only [List.any_eq_true, step_ends_iff]
    constructor
    · rintro ⟨e, he, hi⟩
      exact ⟨_, _, ⟨e, he, rfl, rfl⟩, hi⟩
    · rintro ⟨s, t, ⟨e, he, rfl, rfl⟩, hi⟩
      exact ⟨e, he, hi⟩
  have hsame : ∀ i : Identity, es.any (·.source.same i) = es'.any (·.source.same i) := by
    intro i
    rw [Bool.eq_iff_iff, hany, hany]
    simp only [hs]
  unfold ready
  simp only [hsame]
  exact hn.filter _

theorem least?_of_subset {is js : List Identity}
    (hinj : ∀ i ∈ is, ∀ j ∈ is, i.creationRank = j.creationRank → i = j)
    (h : least? is = some i) (hi : i ∈ js) (hs : js ⊆ is) : least? js = some i := by
  cases hj : least? js with
  | none =>
    obtain rfl := least?_eq_none.mp hj
    cases hi
  | some j =>
    have hjs : j ∈ is := hs (least?_mem hj)
    have hle := least?_le h j hjs
    have hge := least?_le hj i hi
    rw [hinj i (least?_mem h) j hjs (linearLe_creationRank.antisymm _ _ hle hge)]

theorem least?_congr {is js : List Identity}
    (hinj : ∀ i ∈ is, ∀ j ∈ is, i.creationRank = j.creationRank → i = j) (hp : is.Perm js) :
    least? is = least? js := by
  cases hi : least? is with
  | none =>
    obtain rfl := least?_eq_none.mp hi
    obtain rfl := hp.nil_eq
    rfl
  | some i =>
    exact (least?_of_subset hinj hi (hp.mem_iff.mp (least?_mem hi)) hp.symm.subset).symm

/-- The first object is the same, and so is what is left. A tie would show in both. -/
theorem emitFrom_congr (steps : Nat) (hc : Closed nodes es) (hn : nodes.Perm nodes')
    (hs : ∀ i j, Step (es.map Edge.ends) i j ↔ Step (es'.map Edge.ends) i j)
    (hu : Untied (queues steps nodes es)) :
    (emitFrom steps nodes es).1 = (emitFrom steps nodes' es').1 ∧
      Untied (queues steps nodes' es') := by
  induction steps generalizing nodes nodes' es es' with
  | zero => exact ⟨rfl, by simp [queues, Untied]⟩
  | succ steps ih =>
    have hc' := hc.congr hn hs
    have hready := ready_congr hn hs
    rw [queues] at hu ⊢
    obtain ⟨hranks, hrest⟩ := List.forall_mem_cons.mp hu
    have hleast : least? (ready nodes es) = least? (ready nodes' es') :=
      least?_congr (fun i hi j hj => List.inj_on_of_nodup_map hranks hi hj) hready
    have hranks' := (hready.map Identity.creationRank).nodup hranks
    rw [emitFrom_succ, emitFrom_succ, ← hleast]
    cases hl : least? (ready nodes es) with
    | none => exact ⟨rfl, by simp [Untied, hranks']⟩
    | some i =>
      rw [hl] at hrest
      simp only [map_release hc, map_release hc'] at hrest ⊢
      obtain ⟨horder, huntied⟩ := ih (closed_rest hc (least?_mem hl)) (hn.filter _)
        (step_rest hs i) hrest
      exact ⟨congrArg (i :: ·) horder, List.forall_mem_cons.mpr ⟨hranks', huntied⟩⟩

theorem order_congr (hc : Closed nodes es) (hn : nodes.Perm nodes')
    (hs : ∀ i j, Step (es.map Edge.ends) i j ↔ Step (es'.map Edge.ends) i j)
    (hu : Untied (queues nodes.length nodes es)) :
    (order nodes es).1 = (order nodes' es').1 ∧ Untied (queues nodes'.length nodes' es') := by
  unfold order
  rw [← hn.length_eq]
  exact emitFrom_congr nodes.length hc hn hs hu

end Emission

end

-- ---------------------------------------------------------------------------
-- Graphs
-- ---------------------------------------------------------------------------

namespace Graph

variable {g h : Graph}

theorem deferredEdges_congr (hd : Digraph g.nodes g.edges) (hn : g.nodes.Perm h.nodes)
    (he : g.edges.Perm h.edges) : g.deferredEdges = h.deferredEdges := by
  unfold deferredEdges
  rw [Acyclic.components_congr hd hn he]
  refine congrArg List.flatten (List.map_congr_left fun c _ => ?_)
  exact Acyclic.deferredOf_congr hd he c

theorem sortedEdges_congr (hd : Digraph g.nodes g.edges) (he : g.edges.Perm h.edges) :
    g.sortedEdges = h.sortedEdges :=
  sortOn_congr linearLe_edgeKey hd.eq_of_edgeKey he

theorem retained_perm (hd : Digraph g.nodes g.edges) (hn : g.nodes.Perm h.nodes)
    (he : g.edges.Perm h.edges) : g.brokenView.retained.Perm h.brokenView.retained := by
  show (g.edges.filter _).Perm (h.edges.filter _)
  rw [deferredEdges_congr hd hn he]
  exact he.filter _

theorem plan_congr (hd : Digraph g.nodes g.edges) (hn : g.nodes.Perm h.nodes)
    (he : g.edges.Perm h.edges) : g.plan = h.plan := by
  have hdef := deferredEdges_congr hd hn he
  have hview := brokenView_digraph hd
  have hsteps : ∀ i j, Step (g.brokenView.retained.map Edge.ends) i j ↔
      Step (h.brokenView.retained.map Edge.ends) i j :=
    fun i j => ((retained_perm hd hn he).map _).mem_iff
  have horder := (Emission.order_congr hview.closed hn hsteps (View.untied_of_digraph hview)).1
  unfold plan
  rw [hdef, horder]
  rfl

end Graph

end CatalogPlan
