import CatalogPlan.Proofs.Planning

/-!
# What cycle breaking keeps and defers

A graph and its view have the same objects, and every edge of the graph is
retained or deferred. Only references within a class of mutually dependent
objects are deferred. Each of them closed a cycle of what was left when it was
deferred; a later deferral may open that cycle as well, so that the earlier one
was not needed.
-/

namespace CatalogPlan

open Acyclic (arcs deferFrom deferredOf own components memberClass)
open Reach (Path Step Mutual)

/-- A view is a graph without its cycles: the same objects, each edge retained
or deferred, and deferred only if it is a reference whose ends depend on each
other. -/
structure View.Breaks (v : View) (g : Graph) : Prop where
  nodes : v.nodes = g.nodes
  acyclic : Reach.Acyclic (arcs v.retained)
  split : (v.retainedEdges ++ v.deferred).Perm g.sortedEdges
  disjoint : ∀ e ∈ v.retainedEdges, ∀ d ∈ v.deferred, e.arc ≠ d.arc
  deferred_nodup : (v.deferred.map Edge.arc).Nodup
  referential : ∀ d ∈ v.deferred, d.edgeClass = .referential
  same_class : ∀ d ∈ v.deferred, Mutual (arcs g.edges) d.source.address d.target.address

-- ---------------------------------------------------------------------------
-- The candidates of one class
-- ---------------------------------------------------------------------------

namespace Acyclic

/-- A candidate that is deferred closes a path of what stays in the end and what
is deferred after it. -/
theorem deferFrom_closes {es cs : List Edge} (he : e ∈ (deferFrom es cs).2) :
    ∃ later, (∀ d ∈ later, Before (deferFrom es cs).2 e d) ∧
      Path (arcs (later ++ (deferFrom es cs).1)) e.target.address e.source.address := by
  induction cs generalizing es with
  | nil => simp [deferFrom] at he
  | cons c rest ih =>
    rw [deferFrom_cons] at he ⊢
    split at he
    · rename_i hr
      rw [if_pos hr]
      cases he with
      | tail _ he =>
        obtain ⟨later, hlater, hp⟩ := ih he
        exact ⟨later, fun d hd => (hlater d hd).cons c, hp⟩
      | head =>
        refine ⟨_, fun d hd => before_head hd e, ?_⟩
        -- The path back need not use the edge itself, and the others stay or are deferred later.
        apply (Reach.reaches_iff.mp hr).avoid
        intro x y hs hx
        obtain ⟨k, hk, rfl, rfl⟩ := Digraph.step_iff.mp hs
        have hother : ¬ k.joins e.source e.target = true := by
          rw [Edge.joins_iff]
          exact fun ha => hx (congrArg Prod.fst ha)
        have hkept : k ∈ es.filter fun k => !k.joins e.source e.target := by simp [hk, hother]
        rw [Digraph.step_iff]
        by_cases hd : ∃ d ∈ (deferFrom (es.filter fun k => !k.joins e.source e.target) rest).2,
            k.arc = d.arc
        · obtain ⟨d, hd, ha⟩ := hd
          exact ⟨d, List.mem_append_left _ hd, congrArg Prod.fst ha.symm, congrArg Prod.snd ha.symm⟩
        · refine ⟨k, List.mem_append_right _ (mem_deferFrom_fst.mpr ⟨hkept, ?_⟩), rfl, rfl⟩
          exact fun d hm ha => hd ⟨d, hm, ha⟩
    · rename_i hr
      rw [if_neg hr]
      exact ih he

end Acyclic

-- ---------------------------------------------------------------------------
-- The whole graph
-- ---------------------------------------------------------------------------

namespace Graph

variable {g : Graph}

theorem mem_deferredOf_own (hd : Digraph g.nodes g.edges) {component : List Identity}
    (hc : component ∈ components g.nodes g.edges) (hown : e ∈ own g.edges component)
    (he : e ∈ g.deferredEdges) : e ∈ deferredOf g.edges component := by
  obtain ⟨other, hother, hdef⟩ := mem_deferredEdges.mp he
  have hs := source_mem_component hd hc hown
  have hs' := source_mem_component hd hother (mem_deferredOf hdef).1
  obtain ⟨i, -, -, rfl⟩ := (Acyclic.mem_components hd).mp hc
  obtain ⟨j, -, -, rfl⟩ := (Acyclic.mem_components hd).mp hother
  have hij : Mutual (arcs g.edges) i.address j.address :=
    (Acyclic.mem_memberClass.mp hs).2.trans (Acyclic.mem_memberClass.mp hs').2.symm
  rwa [Acyclic.memberClass_eq hij]

theorem mutual_of_deferred (hd : Digraph g.nodes g.edges) (he : e ∈ g.deferredEdges) :
    ∃ c ∈ components g.nodes g.edges, e ∈ deferredOf g.edges c ∧
      ∀ d ∈ own g.edges c, Mutual (arcs g.edges) e.source.address d.source.address ∧
        Mutual (arcs g.edges) e.source.address d.target.address := by
  obtain ⟨c, hc, hdef⟩ := mem_deferredEdges.mp he
  refine ⟨c, hc, hdef, fun d hown => ?_⟩
  have hself := (mem_deferredOf hdef).1
  obtain ⟨i, -, -, rfl⟩ := (Acyclic.mem_components hd).mp hc
  obtain ⟨-, hi, -⟩ := (Acyclic.mem_own_memberClass hd).mp hself
  obtain ⟨-, hsource, htarget⟩ := (Acyclic.mem_own_memberClass hd).mp hown
  exact ⟨hi.symm.trans hsource, hi.symm.trans htarget⟩

theorem deferredEdges_closes (hd : Digraph g.nodes g.edges) (he : e ∈ g.deferredEdges) :
    ∃ later, (∀ d ∈ later, Before g.deferredEdges e d ∧
        Mutual (arcs g.edges) e.source.address d.source.address) ∧
      Path (arcs (later ++ g.brokenView.retained)) e.target.address e.source.address := by
  obtain ⟨c, hc, hdef, hmutual⟩ := mutual_of_deferred hd he
  obtain ⟨later, hlater, hp⟩ := Acyclic.deferFrom_closes hdef
  have hpart : (deferredOf g.edges c).Sublist g.deferredEdges :=
    List.sublist_flatten_of_mem (List.mem_map_of_mem hc)
  refine ⟨later, fun d hm => ⟨(hlater d hm).trans hpart, ?_⟩, ?_⟩
  · have hmem : d ∈ deferredOf g.edges c := (hlater d hm).subset (by simp)
    exact (hmutual d (mem_deferredOf hmem).1).1
  · refine hp.mono (Acyclic.arcs_mono (List.append_subset.mpr ⟨List.subset_append_left .., ?_⟩))
    intro k hk
    obtain ⟨hown, hnot⟩ := Acyclic.mem_deferFrom_fst.mp hk
    refine List.mem_append_right _ ((mem_retained hd).mpr ⟨(Acyclic.own_sublist ..).subset hown, ?_⟩)
    exact fun hk => hnot k (mem_deferredOf_own hd hc hown hk) rfl

end Graph

namespace View

variable {v : View}

theorem edges_eq (hd : Digraph v.nodes v.retained) : v.edges = v.retained := by
  refine (List.map_congr_left fun e he => ?_).trans (List.map_id _)
  rw [(Identity.find?_same_iff hd.nodes_nodup).mpr ⟨hd.source_mem e he, rfl⟩]
  rfl

end View

theorem brokenView_breaks {g : Graph} (hd : Digraph g.nodes g.edges)
    (hc : Reach.Acyclic (arcs g.brokenView.retained)) : g.brokenView.Breaks g := by
  have hperm : g.brokenView.retainedEdges.Perm g.brokenView.retained := by
    unfold View.retainedEdges sortEdges
    rw [View.edges_eq (Graph.brokenView_digraph hd)]
    exact sortOn_perm ..
  have hdeferred : g.deferredEdges.Perm (g.edges.filter fun e => !!g.deferredEdges.any fun d =>
      e.joins d.source d.target) := by
    refine (List.perm_ext_iff_of_nodup (Graph.deferredEdges_nodup hd)
      (hd.edges_nodup.filter _)).mpr fun e => ?_
    simp only [List.mem_filter, Bool.not_not, List.any_eq_true, Edge.joins_edge]
    constructor
    · exact fun he => ⟨(Graph.deferredEdges_subset he).1, e, he, rfl⟩
    · rintro ⟨he, d, hm, ha⟩
      rwa [hd.eq_of_arc he (Graph.deferredEdges_subset hm).1 ha]
  refine ⟨rfl, hc, ?_, ?_, ?_, ?_, ?_⟩
  · refine ((hperm.append hdeferred).trans ?_).trans (sortOn_perm _ _ _).symm
    exact List.filter_append_perm ..
  · intro e he d hm ha
    obtain ⟨hmem, hnot⟩ := (Graph.mem_retained hd).mp (hperm.mem_iff.mp he)
    exact hnot (hd.eq_of_arc hmem (Graph.deferredEdges_subset hm).1 ha ▸ hm)
  · exact Graph.deferredEdges_arcs_nodup hd
  · exact fun d hm => Graph.deferredEdges_referential hm
  · intro d hm
    obtain ⟨c, -, hdef, hmutual⟩ := Graph.mutual_of_deferred hd hm
    exact (hmutual d (Graph.mem_deferredOf hdef).1).2

-- ---------------------------------------------------------------------------
-- Graphs that were built
-- ---------------------------------------------------------------------------

variable {batches : Batches} {failedKinds : List Value} {g : Graph} {v : View}

/-- Cycle breaking splits the edges of a graph. An edge on no cycle is retained,
and without cycles all are. -/
theorem breakCycles_breaks (hg : (Graph.build batches failedKinds).result = .ok g)
    (hv : g.breakCycles.result = .ok v) :
    v.Breaks g ∧
      (∀ e ∈ g.sortedEdges, ¬ Path (arcs g.edges) e.target.address e.source.address →
        e ∈ v.retainedEdges) ∧
      (Reach.Acyclic (arcs g.edges) → v.deferred = [] ∧ v.retainedEdges = g.sortedEdges) := by
  have hd := build_digraph hg
  obtain ⟨rfl, hdigraph, hacyclic⟩ := Graph.breakCycles_view hd hv
  have hbreaks := brokenView_breaks hd hacyclic
  refine ⟨hbreaks, ?_, fun hc => ?_⟩
  · intro e he hoff
    cases List.mem_append.mp (hbreaks.split.mem_iff.mpr he) with
    | inl hkept => exact hkept
    | inr hdef => exact absurd (hbreaks.same_class e hdef).2 hoff
  · have hnil : g.deferredEdges = [] := by
      apply List.eq_nil_iff_forall_not_mem.mpr
      intro e he
      have hs := Digraph.step_of_mem (Graph.deferredEdges_subset he).1
      exact hc e.source.address (Reach.onCycle_of_step hs (hbreaks.same_class e he).2)
    refine ⟨hnil, ?_⟩
    have hretained : g.brokenView.retained = g.edges := by simp [Graph.brokenView, hnil]
    unfold View.retainedEdges Graph.sortedEdges
    rw [View.edges_eq hdigraph, hretained]

theorem breakCycles_breaks_shop : ∃ g v, (Graph.build shop []).result = .ok g ∧
    g.breakCycles.result = .ok v ∧ v.deferred ≠ [] ∧ v.Breaks g := by
  obtain ⟨v, hrun⟩ : ∃ v, (Graph.build shop [] >>= Graph.breakCycles).result = .ok v :=
    isOk_iff.mp (by decide)
  obtain ⟨g, hg, hv⟩ := Traced.bind_ok.mp hrun
  have hdeferred : (Graph.build shop [] >>= Graph.breakCycles).result.toOption.all fun v =>
      !v.deferred.isEmpty := by decide
  rw [hrun] at hdeferred
  refine ⟨g, v, hg, hv, ?_, (breakCycles_breaks hg hv).1⟩
  rintro hnil
  simp [Except.toOption, hnil] at hdeferred

/-- Every deferred edge closes a cycle of what is retained and what its class
deferred after it, so that the last one of a class cannot be retained. -/
theorem deferred_closes (hg : (Graph.build batches failedKinds).result = .ok g)
    (hv : g.breakCycles.result = .ok v) :
    ∀ e ∈ v.deferred,
      (∃ later, (∀ d ∈ later, Before v.deferred e d ∧
          Mutual (arcs g.edges) e.source.address d.source.address) ∧
        Path (arcs (later ++ v.retained)) e.target.address e.source.address) ∧
      ((∀ d, Before v.deferred e d → ¬ Mutual (arcs g.edges) e.source.address d.source.address) →
        ¬ Reach.Acyclic (arcs (e :: v.retained))) := by
  have hd := build_digraph hg
  obtain ⟨rfl, -, -⟩ := Graph.breakCycles_view hd hv
  intro e he
  obtain ⟨later, hlater, hp⟩ := Graph.deferredEdges_closes hd he
  refine ⟨⟨later, hlater, hp⟩, fun hlast hacyclic => ?_⟩
  have hnone : later = [] :=
    List.eq_nil_iff_forall_not_mem.mpr fun d hm => hlast d (hlater d hm).1 (hlater d hm).2
  subst hnone
  have hback := hp.mono (Acyclic.arcs_mono (List.subset_cons_self e g.brokenView.retained))
  exact hacyclic e.source.address (Reach.onCycle_of_step (Digraph.step_of_mem (by simp)) hback)

def report : Batches :=
  [("view",
      [⟨⟨.view, .name "app.b"⟩, [],
        [⟨⟨.routine, .name "app.a()"⟩, none⟩, ⟨⟨.routine, .name "app.c()"⟩, none⟩], none⟩]),
    ("function",
      [⟨⟨.routine, .name "app.a()"⟩, [], [⟨⟨.view, .name "app.b"⟩, none⟩], none⟩,
        ⟨⟨.routine, .name "app.c()"⟩, [], [⟨⟨.routine, .name "app.a()"⟩, none⟩], none⟩])]

theorem deferred_closes_report : ∃ g v, (Graph.build report []).result = .ok g ∧
    g.breakCycles.result = .ok v ∧ ∀ e ∈ v.deferred,
      ∃ later, (∀ d ∈ later, Before v.deferred e d) ∧
        Path (arcs (later ++ v.retained)) e.target.address e.source.address := by
  obtain ⟨v, hrun⟩ : ∃ v, (Graph.build report [] >>= Graph.breakCycles).result = .ok v :=
    isOk_iff.mp (by decide)
  obtain ⟨g, hg, hv⟩ := Traced.bind_ok.mp hrun
  refine ⟨g, v, hg, hv, fun e he => ?_⟩
  obtain ⟨⟨later, hlater, hp⟩, -⟩ := deferred_closes hg hv e he
  exact ⟨later, fun d hm => (hlater d hm).1, hp⟩

/-- The reference that is deferred first could have stayed: the edge deferred
after it lies on the same cycle. -/
theorem deferred_needless_report : ∃ g v e, (Graph.build report []).result = .ok g ∧
    g.breakCycles.result = .ok v ∧ e ∈ v.deferred ∧ Reach.Acyclic (arcs (e :: v.retained)) := by
  obtain ⟨v, hrun⟩ : ∃ v, (Graph.build report [] >>= Graph.breakCycles).result = .ok v :=
    isOk_iff.mp (by decide)
  obtain ⟨g, hg, hv⟩ := Traced.bind_ok.mp hrun
  let a : Identity := ⟨.routine, .name "app.a()"⟩
  let b : Identity := ⟨.view, .name "app.b"⟩
  let c : Identity := ⟨.routine, .name "app.c()"⟩
  have hview : (Graph.build report [] >>= Graph.breakCycles).result.toOption.map
      (fun v => (v.retained, v.deferred)) =
        some ([⟨b, a, .structural⟩, ⟨b, c, .structural⟩],
          [⟨c, a, .referential⟩, ⟨a, b, .referential⟩]) := by decide
  rw [hrun] at hview
  simp only [Except.toOption, Option.map_some, Option.some.injEq, Prod.mk.injEq] at hview
  refine ⟨g, v, ⟨c, a, .referential⟩, hg, hv, by simp [hview.2], ?_⟩
  rw [hview.1]
  apply Reach.acyclic_of_rank fun x => [a.address, c.address, b.address].idxOf x
  decide

end CatalogPlan
