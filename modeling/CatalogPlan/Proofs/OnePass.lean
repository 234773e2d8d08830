import CatalogPlan.Proofs.Classes

/-!
# One pass over the whole graph

Cycle breaking looks at one class of mutually dependent objects after another. It
defers what a single pass over all references of the graph would: a path that
closes a cycle with an edge stays within the class of the edge, so that the
classes do not bear on each other.
-/

namespace CatalogPlan

open Acyclic (arcs own memberClass components candidates deferFrom deferredOf Leads)
open Reach (Path OnCycle Mutual)

/-- A pass through candidates, with what it removes: an edge is removed when its
target still reaches its source by the edges that are left. -/
inductive Pass : (left : List Edge) → (tried removed : List Edge) → Prop
  | done : Pass left [] []
  | remove : Path (arcs left) e.target.address e.source.address →
      Pass (left.filter fun k => !k.joins e.source e.target) rest removed →
        Pass left (e :: rest) (e :: removed)
  | keep : ¬ Path (arcs left) e.target.address e.source.address →
      Pass left rest removed → Pass left (e :: rest) removed

namespace Graph

structure Descending (g : Graph) (tried : List Edge) : Prop where
  perm : tried.Perm (g.edges.filter (·.edgeClass == .referential))
  sorted : tried.Pairwise fun e d => edgeKeyLe d.sortKey e.sortKey = true

/-- One edge is deferred before another: the first member of its class comes first,
or within one class the edge sorts last. -/
def DeferredBefore (g : Graph) (e d : Edge) : Prop :=
  ∃ i j, Leads g.nodes g.edges i ∧ Mutual (arcs g.edges) i.address e.source.address ∧
    Leads g.nodes g.edges j ∧ Mutual (arcs g.edges) j.address d.source.address ∧
      (sortKeyLe i.sortKey j.sortKey = true ∧ i.sortKey ≠ j.sortKey ∨
        i = j ∧ edgeKeyLe d.sortKey e.sortKey = true ∧ d.sortKey ≠ e.sortKey)

end Graph

-- ---------------------------------------------------------------------------
-- Passes
-- ---------------------------------------------------------------------------

namespace Acyclic

theorem deferFrom_pass (es cs : List Edge) : Pass es cs (deferFrom es cs).2 := by
  induction cs generalizing es with
  | nil => exact .done
  | cons c rest ih =>
    rw [deferFrom_cons]
    split
    · rename_i hr
      exact .remove (Reach.reaches_iff.mp hr) (ih _)
    · rename_i hr
      exact .keep (fun hp => hr (Reach.reaches_iff.mpr hp)) (ih es)

theorem deferFrom_path {es cs : List Edge} (h : e ∈ (deferFrom es cs).2) :
    Path (arcs es) e.target.address e.source.address := by
  induction cs generalizing es with
  | nil => simp [deferFrom] at h
  | cons c rest ih =>
    rw [deferFrom_cons] at h
    split at h
    · rename_i hr
      cases h with
      | head => exact Reach.reaches_iff.mp hr
      | tail _ h => exact (ih h).mono (arcs_mono List.filter_sublist.subset)
    · exact ih h

section
variable {nodes : List Identity} {es ks cs : List Edge}

theorem reaches_own (hd : Digraph nodes es) (hks : ks ⊆ es)
    (he : e ∈ own es (memberClass nodes es i)) :
    Reach.reaches (arcs ks) e.target.address e.source.address =
      Reach.reaches (arcs (own ks (memberClass nodes es i))) e.target.address e.source.address := by
  obtain ⟨-, hsource, htarget⟩ := (mem_own_memberClass hd).mp he
  rw [Bool.eq_iff_iff, Reach.reaches_iff, Reach.reaches_iff]
  refine ⟨fun hp => hp.restrict ?_, fun hp => hp.mono (arcs_mono (own_sublist ..).subset)⟩
  intro x y htx hs hys
  obtain ⟨k, hk, rfl, rfl⟩ := Digraph.step_iff.mp hs
  have hmono := arcs_mono hks
  have hown := mem_own_of_path hd (hks hk) (htarget.1.trans (htx.mono hmono))
    ((hys.mono hmono).trans hsource.2)
  exact Digraph.step_of_mem (List.mem_filter.mpr ⟨hk, (List.mem_filter.mp hown).2⟩)

theorem own_filter_joins {c : Edge} {component : List Identity}
    (hc : c.inside (component.map (·.address)) = false) (ks : List Edge) :
    own (ks.filter fun k => !k.joins c.source c.target) component = own ks component := by
  unfold own
  rw [List.filter_filter]
  refine List.filter_congr fun k _ => ?_
  rw [Bool.and_eq_left_iff_imp, Bool.not_eq_true', ← Bool.not_eq_true, Edge.joins_edge]
  intro hk ha
  rw [Edge.inside, show k.source.address = c.source.address from congrArg Prod.fst ha,
    show k.target.address = c.target.address from congrArg Prod.snd ha] at hk
  rw [Edge.inside, hk] at hc
  cases hc

/-- Of a pass through any edges, each class sees what a pass of its own would give. -/
theorem own_deferFrom (hd : Digraph nodes es) (hks : ks ⊆ es) (hcs : cs ⊆ es) (i : Identity) :
    own (deferFrom ks cs).2 (memberClass nodes es i) =
      (deferFrom (own ks (memberClass nodes es i)) (own cs (memberClass nodes es i))).2 := by
  induction cs generalizing ks with
  | nil => rfl
  | cons c rest ih =>
    obtain ⟨hc, hrest⟩ := List.cons_subset.mp hcs
    have hless : (ks.filter fun k => !k.joins c.source c.target) ⊆ es :=
      fun _ hk => hks (List.mem_filter.mp hk).1
    rw [deferFrom_cons]
    cases hin : c.inside ((memberClass nodes es i).map (·.address)) with
    | true =>
      have hcons : ∀ ds, own (c :: ds) (memberClass nodes es i) =
          c :: own ds (memberClass nodes es i) := fun ds => List.filter_cons_of_pos hin
      have hfilter : own (ks.filter fun k => !k.joins c.source c.target) (memberClass nodes es i) =
          (own ks (memberClass nodes es i)).filter fun k => !k.joins c.source c.target :=
        List.filter_comm ..
      rw [hcons, deferFrom_cons, ← reaches_own hd hks (List.mem_filter.mpr ⟨hc, hin⟩)]
      split
      · rw [hcons, ih hless hrest, hfilter]
      · exact ih hks hrest
    | false =>
      have hcons : ∀ ds, own (c :: ds) (memberClass nodes es i) =
          own ds (memberClass nodes es i) := fun ds => List.filter_cons_of_neg (by simp [hin])
      rw [hcons]
      split
      · rw [hcons, ih hless hrest, own_filter_joins hin]
      · exact ih hks hrest

theorem own_candidates (es : List Edge) (component : List Identity) :
    candidates (own es component) = own (candidates es) component := by
  unfold candidates own sortEdges
  rw [List.filter_reverse, sortOn_filter linearLe_edgeKey, List.filter_comm]

theorem candidates_subset (es : List Edge) : candidates es ⊆ es :=
  fun _ he => (mem_candidates.mp he).1

theorem deferredOf_eq (hd : Digraph nodes es) (i : Identity) :
    deferredOf es (memberClass nodes es i) =
      own (deferFrom es (candidates es)).2 (memberClass nodes es i) := by
  rw [deferredOf, own_candidates,
    ← own_deferFrom hd (List.Subset.refl es) (candidates_subset es) i]

end

end Acyclic

theorem Pass.eq {left tried removed : List Edge} (h : Pass left tried removed) :
    removed = (deferFrom left tried).2 := by
  induction h with
  | done => rfl
  | remove hp _ ih => rw [Acyclic.deferFrom_cons, if_pos (Reach.reaches_iff.mpr hp), ← ih]
  | keep hp _ ih => rw [Acyclic.deferFrom_cons, if_neg fun hr => hp (Reach.reaches_iff.mp hr), ← ih]

-- ---------------------------------------------------------------------------
-- The whole graph
-- ---------------------------------------------------------------------------

namespace Graph

variable {g : Graph}

theorem descending_candidates (g : Graph) : g.Descending (candidates g.edges) := by
  refine ⟨(List.reverse_perm _).trans (sortOn_perm ..), List.pairwise_reverse.mpr ?_⟩
  exact sortOn_pairwise linearLe_edgeKey ..

theorem Descending.eq {tried : List Edge} (hd : Digraph g.nodes g.edges)
    (h : g.Descending tried) : tried = candidates g.edges := by
  have hsorted : sortEdges (g.edges.filter (·.edgeClass == .referential)) = tried.reverse :=
    sortOn_unique linearLe_edgeKey (hd.sublist List.filter_sublist).eq_of_edgeKey
      (h.perm.symm.trans (List.reverse_perm tried).symm) (List.pairwise_reverse.mpr h.sorted)
  rw [candidates, hsorted, List.reverse_reverse]

theorem mem_deferredEdges_pass (hd : Digraph g.nodes g.edges) :
    d ∈ g.deferredEdges ↔ d ∈ (deferFrom g.edges (candidates g.edges)).2 := by
  rw [mem_deferredEdges]
  constructor
  · rintro ⟨c, hc, hdef⟩
    obtain ⟨i, -, -, rfl⟩ := (Acyclic.mem_components hd).mp hc
    rw [Acyclic.deferredOf_eq hd] at hdef
    exact (Acyclic.own_sublist ..).subset hdef
  · intro hdef
    have hmem := Acyclic.candidates_subset _ ((Acyclic.deferFrom_sublist ..).subset hdef)
    have hpath := Acyclic.deferFrom_path hdef
    have hcycle := Reach.onCycle_of_step (Digraph.step_of_mem hmem) hpath
    obtain ⟨i, -, hi, hcomp⟩ := Acyclic.memberClass_mem_components hd hcycle
    refine ⟨_, hcomp, ?_⟩
    rw [Acyclic.deferredOf_eq hd]
    have hown := Acyclic.mem_own_of_path hd hmem (hi ▸ .refl) (hi ▸ hpath)
    exact List.mem_filter.mpr ⟨hdef, (List.mem_filter.mp hown).2⟩

theorem deferredEdges_sorted (hd : Digraph g.nodes g.edges) :
    g.deferredEdges.Pairwise g.DeferredBefore := by
  have hshared : ∀ {i e}, e ∈ deferredOf g.edges (memberClass g.nodes g.edges i) →
      Mutual (arcs g.edges) i.address e.source.address := fun he =>
    ((Acyclic.mem_own_memberClass hd).mp (mem_deferredOf he).1).2.1
  refine List.pairwise_flatten.mpr ⟨?_, List.pairwise_map.mpr ?_⟩
  · intro ds hds
    obtain ⟨c, hc, rfl⟩ := List.mem_map.mp hds
    obtain ⟨i, hi, -, rfl⟩ := (Acyclic.mem_components_leads hd).mp hc
    have hpart : Digraph g.nodes ((own g.edges (memberClass g.nodes g.edges i)).filter
        (·.edgeClass == .referential)) :=
      hd.sublist (List.filter_sublist.trans (Acyclic.own_sublist ..))
    have hsorted := List.pairwise_reverse.mpr hpart.sortEdges_strict
    refine (hsorted.sublist (Acyclic.deferFrom_sublist ..)).imp_of_mem ?_
    intro e d he hm hed
    exact ⟨i, i, hi, hshared he, hi, hshared hm, .inr ⟨rfl, hed⟩⟩
  · refine ((Acyclic.components_sorted hd).and (Acyclic.components_disjoint hd)).imp_of_mem ?_
    rintro b c hb hc ⟨hle, hdisjoint⟩ e he d hm
    obtain ⟨i, hi, -, rfl⟩ := (Acyclic.mem_components_leads hd).mp hb
    obtain ⟨j, hj, -, rfl⟩ := (Acyclic.mem_components_leads hd).mp hc
    refine ⟨i, j, hi, hshared he, hj, hshared hm, .inl ⟨hle i j hi hj rfl rfl, fun hk => ?_⟩⟩
    obtain rfl := hd.eq_of_sortKey i hi.mem j hj.mem hk
    have hself := Acyclic.mem_memberClass.mpr ⟨hi.mem, Mutual.refl (arcs g.edges) i.address⟩
    exact hdisjoint hself hself

end Graph

-- ---------------------------------------------------------------------------
-- Graphs that were built
-- ---------------------------------------------------------------------------

/-- One pass over all references of a graph, the one that sorts last first, removes
what cycle breaking defers; that is listed class by class. -/
theorem one_pass_defers {batches : Batches} {failedKinds : List Value} {g : Graph} {v : View}
    (hg : (Graph.build batches failedKinds).result = .ok g) (hv : g.breakCycles.result = .ok v) :
    (∃ tried removed, g.Descending tried ∧ Pass g.edges tried removed) ∧
      (∀ tried removed, g.Descending tried → Pass g.edges tried removed →
        removed.Perm v.deferred) ∧
      v.deferred.Pairwise g.DeferredBefore := by
  have hd := build_digraph hg
  obtain ⟨rfl, -, -⟩ := Graph.breakCycles_view hd hv
  refine ⟨?_, ?_, Graph.deferredEdges_sorted hd⟩
  · exact ⟨_, _, Graph.descending_candidates g, Acyclic.deferFrom_pass g.edges _⟩
  · intro tried removed htried hpass
    obtain rfl := hpass.eq
    obtain rfl := htried.eq hd
    have hnodup : (candidates g.edges).Nodup :=
      ((Graph.descending_candidates g).perm.nodup_iff).mpr (hd.edges_nodup.filter _)
    refine (List.perm_ext_iff_of_nodup (hnodup.sublist (Acyclic.deferFrom_sublist ..))
      (Graph.deferredEdges_nodup hd)).mpr fun e => ?_
    exact (Graph.mem_deferredEdges_pass hd).symm

def pledges : Batches :=
  [("table",
      [⟨⟨.table, .name "acl.p"⟩, [], [⟨⟨.table, .name "acl.q"⟩, none⟩], none⟩,
        ⟨⟨.table, .name "acl.q"⟩, [], [⟨⟨.table, .name "acl.p"⟩, none⟩], none⟩,
        ⟨⟨.table, .name "web.v"⟩, [], [⟨⟨.table, .name "web.w"⟩, none⟩], none⟩,
        ⟨⟨.table, .name "web.w"⟩, [], [⟨⟨.table, .name "web.v"⟩, none⟩], none⟩])]

theorem one_pass_defers_pledges : ∃ g v tried removed, (Graph.build pledges []).result = .ok g ∧
    g.breakCycles.result = .ok v ∧ g.Descending tried ∧ Pass g.edges tried removed ∧
    removed.Perm v.deferred ∧ removed = v.deferred.reverse ∧ removed.length = 2 := by
  obtain ⟨v, hrun⟩ : ∃ v, (Graph.build pledges [] >>= Graph.breakCycles).result = .ok v :=
    isOk_iff.mp (by decide)
  obtain ⟨g, hg, hv⟩ := Traced.bind_ok.mp hrun
  obtain ⟨⟨tried, removed, htried, hpass⟩, hperm, -⟩ := one_pass_defers hg hv
  have hlists : (Graph.build pledges []).result.toOption.map (fun g =>
      ((deferFrom g.edges (candidates g.edges)).2, g.deferredEdges)) =
      some ([⟨⟨.table, .name "web.w"⟩, ⟨.table, .name "web.v"⟩, .referential⟩,
          ⟨⟨.table, .name "acl.q"⟩, ⟨.table, .name "acl.p"⟩, .referential⟩],
        [⟨⟨.table, .name "acl.q"⟩, ⟨.table, .name "acl.p"⟩, .referential⟩,
          ⟨⟨.table, .name "web.w"⟩, ⟨.table, .name "web.v"⟩, .referential⟩]) := rfl
  have hd := build_digraph hg
  obtain ⟨rfl, -, -⟩ := Graph.breakCycles_view hd hv
  simp only [hg, Except.toOption, Option.map_some, Option.some.injEq, Prod.mk.injEq] at hlists
  have hremoved : removed = (deferFrom g.edges (candidates g.edges)).2 := htried.eq hd ▸ hpass.eq
  refine ⟨g, _, tried, removed, hg, hv, htried, hpass, hperm _ _ htried hpass, ?_, ?_⟩
  · rw [hremoved, hlists.1]
    exact congrArg List.reverse hlists.2.symm
  · rw [hremoved, hlists.1]
    rfl

end CatalogPlan
