import CatalogPlan.Proofs.Congruence
import CatalogPlan.Proofs.Graph.Bystander

/-!
# A bystander does not disturb a plan

An object at no end of an edge is in no class of mutually dependent objects, and
emission takes it out when its rank is reached. All other objects are taken out
in the order they are taken out in without it.
-/

namespace CatalogPlan

open Acyclic (arcs)

def Apart (i : Identity) (es : List Edge) : Prop :=
  ∀ e ∈ es, e.source.address ≠ i.address ∧ e.target.address ≠ i.address

theorem Apart.subset {es less : List Edge} (h : Apart i es) (hs : less ⊆ es) : Apart i less :=
  fun e he => h e (hs he)

section
variable {before after : List Identity} {es : List Edge}

-- ---------------------------------------------------------------------------
-- Cycle breaking
-- ---------------------------------------------------------------------------

namespace Acyclic

theorem not_onCycle_of_apart (hi : Apart i es) : ¬ Reach.OnCycle (arcs es) i.address := by
  intro hc
  obtain ⟨b, hs, -⟩ := Reach.OnCycle.step hc
  obtain ⟨e, he, hsource, -⟩ := Digraph.step_iff.mp hs
  exact (hi e he).1 hsource

theorem memberClass_insert (hd : Digraph (before ++ i :: after) es)
    (hd' : Digraph (before ++ after) es) (hi : Apart i es)
    (hc : Reach.OnCycle (arcs es) j.address) :
    memberClass (before ++ i :: after) es j = memberClass (before ++ after) es j := by
  refine memberClass_eq_of_mem hd hd' fun k => ?_
  rw [mem_memberClass, mem_memberClass]
  refine and_congr_left fun hm => ?_
  have hk : k ≠ i := by
    rintro rfl
    exact not_onCycle_of_apart hi (hm.onCycle hc)
  simp [hk]

theorem components_insert (hd : Digraph (before ++ i :: after) es)
    (hd' : Digraph (before ++ after) es) (hi : Apart i es) :
    components (before ++ i :: after) es = components (before ++ after) es := by
  refine components_eq_of_mem hd hd' fun c => ?_
  rw [mem_components hd, mem_components hd']
  refine exists_congr fun j => ?_
  constructor
  · rintro ⟨hj, hc, rfl⟩
    have hne : j ≠ i := by
      rintro rfl
      exact not_onCycle_of_apart hi hc
    exact ⟨by simpa [hne] using hj, hc, memberClass_insert hd hd' hi hc⟩
  · rintro ⟨hj, hc, rfl⟩
    have hj : j ∈ before ∨ j ∈ after := List.mem_append.mp hj
    exact ⟨by simp; tauto, hc, (memberClass_insert hd hd' hi hc).symm⟩

end Acyclic

-- ---------------------------------------------------------------------------
-- Emission
-- ---------------------------------------------------------------------------

namespace Emission

/-- One object is at some place of the first list, which is the second one otherwise. -/
def Placed (i : Identity) (longer shorter : List Identity) : Prop :=
  ∃ earlier later, shorter = earlier ++ later ∧ longer = earlier ++ i :: later

theorem Placed.cons (h : Placed i longer shorter) (k : Identity) :
    Placed i (k :: longer) (k :: shorter) := by
  obtain ⟨earlier, later, rfl, rfl⟩ := h
  exact ⟨k :: earlier, later, rfl, rfl⟩

theorem exists_least (before after : List Identity) (hi : Apart i es) :
    ∃ k, least? (ready (before ++ i :: after) es) = some k := by
  have hready : i ∈ ready (before ++ i :: after) es :=
    mem_ready.mpr ⟨by simp, fun e he => (hi e he).1⟩
  rw [← Option.ne_none_iff_exists']
  intro h
  rw [least?_eq_none.mp h] at hready
  cases hready

/-- While another object has a lesser rank, it is the least without this one too. -/
theorem least?_insert (hd : Digraph (before ++ i :: after) es)
    (h : least? (ready (before ++ i :: after) es) = some k) (hk : k ≠ i) :
    least? (ready (before ++ after) es) = some k := by
  obtain ⟨hmem, hfree⟩ := mem_ready.mp (least?_mem h)
  refine least?_of_subset ?_ h (mem_ready.mpr ⟨by simpa [hk] using hmem, hfree⟩) ?_
  · exact fun a ha b hb => hd.eq_of_creationRank a (mem_ready.mp ha).1 b (mem_ready.mp hb).1
  · intro a ha
    obtain ⟨ha, hfree⟩ := mem_ready.mp ha
    have ha : a ∈ before ∨ a ∈ after := List.mem_append.mp ha
    exact mem_ready.mpr ⟨by simp; tauto, hfree⟩

theorem digraph_erase (hd : Digraph (before ++ i :: after) es) (hi : Apart i es) :
    Digraph (before ++ after) es := by
  have hsub : (before ++ after).Sublist (before ++ i :: after) :=
    (List.Sublist.refl before).append (List.sublist_cons_self i after)
  have hmem : ∀ j ∈ before ++ i :: after, j.address ≠ i.address → j ∈ before ++ after := by
    intro j hj ha
    have hne : j ≠ i := fun h => ha (congrArg Identity.address h)
    simpa [hne] using hj
  exact { hd with
    nodes_nodup := hd.nodes_nodup.sublist (hsub.map _)
    named := fun j hj => hd.named j (hsub.subset hj)
    source_mem := fun e he => hmem _ (hd.source_mem e he) (hi e he).1
    target_mem := fun e he => hmem _ (hd.target_mem e he) (hi e he).2 }

theorem digraph_rest (hd : Digraph nodes es) (hi : i ∈ ready nodes es) :
    Digraph (nodes.filter fun j => !j.same i) (es.filter fun e => !e.target.same i) := by
  have hrest := closed_rest hd.closed hi
  have hless := hd.sublist (List.filter_sublist (p := fun e : Edge => !e.target.same i))
  exact { hless with
    nodes_nodup := hrest.nodes_nodup
    named := fun j hj => hd.named j (List.mem_filter.mp hj).1
    source_mem := hrest.source_mem
    target_mem := hrest.target_mem }

theorem rest_apart (hd : Digraph (before ++ i :: after) es) (hi : Apart i es) :
    ((before ++ i :: after).filter fun j => !j.same i) = before ++ after ∧
      (es.filter fun e => !e.target.same i) = es := by
  have hnodup := hd.nodes_nodup
  simp only [List.map_append, List.map_cons, List.nodup_append, List.nodup_cons] at hnodup
  obtain ⟨-, ⟨hafter, -⟩, hbefore⟩ := hnodup
  have hothers : ∀ j ∈ before ++ after, (!j.same i) = true := by
    intro j hj
    rw [Bool.not_eq_true', Identity.same_eq_false]
    rcases List.mem_append.mp hj with hj | hj
    · exact hbefore _ (List.mem_map_of_mem hj) _ (by simp)
    · exact fun ha => hafter (ha ▸ List.mem_map_of_mem hj)
  refine ⟨?_, List.filter_eq_self.mpr fun e he => ?_⟩
  · rw [List.filter_append, List.filter_cons_of_neg (by simp), ← List.filter_append]
    exact List.filter_eq_self.mpr hothers
  · simpa [Identity.same_eq_false] using (hi e he).2

theorem emitFrom_taken (steps : Nat) (hd : Digraph (before ++ i :: after) es) (hi : Apart i es)
    (h : least? (ready (before ++ i :: after) es) = some i) :
    (emitFrom (steps + 1) (before ++ i :: after) es).1 =
      i :: (emitFrom steps (before ++ after) es).1 := by
  rw [emitFrom_succ, h]
  simp only [map_release hd.closed]
  rw [(rest_apart hd hi).1, (rest_apart hd hi).2]

theorem emitFrom_insert (steps : Nat) (hd : Digraph (before ++ i :: after) es) (hi : Apart i es)
    (hsteps : (before ++ after).length ≤ steps) :
    Placed i (emitFrom (steps + 1) (before ++ i :: after) es).1
      (emitFrom steps (before ++ after) es).1 := by
  -- The two runs take the same steps until the bystander has the least rank of all that are
  -- ready; from there on one run is a step behind the other.
  induction steps generalizing before after es with
  | zero =>
    obtain ⟨rfl, rfl⟩ := List.append_eq_nil_iff.mp
      (List.length_eq_zero_iff.mp (Nat.le_zero.mp hsteps))
    obtain ⟨k, hl⟩ := exists_least [] [] hi
    obtain rfl : k = i := by simpa using (mem_ready.mp (least?_mem hl)).1
    exact ⟨[], [], rfl, emitFrom_taken 0 hd hi hl⟩
  | succ steps ih =>
    obtain ⟨k, hl⟩ := exists_least before after hi
    by_cases hk : k = i
    · subst hk
      exact ⟨[], _, rfl, emitFrom_taken (steps + 1) hd hi hl⟩
    · have hl' := least?_insert hd hl hk
      have hkept : (!i.same k) = true := by
        rw [Bool.not_eq_true', Identity.same_eq_false]
        exact fun ha => hk (hd.eq_of_address (mem_ready.mp (least?_mem hl)).1 (by simp) ha.symm)
      have hsplit : (before ++ i :: after).filter (fun j => !j.same k) =
          before.filter (fun j => !j.same k) ++ i :: after.filter fun j => !j.same k := by
        simp only [List.filter_append, List.filter_cons, hkept, if_true]
      have hrest := digraph_rest hd (least?_mem hl)
      have hless : ((before ++ after).filter fun j => !j.same k).length < (before ++ after).length :=
        List.length_filter_lt_length_iff_exists.mpr
          ⟨k, (mem_ready.mp (least?_mem hl')).1, by simp⟩
      rw [emitFrom_succ, hl, emitFrom_succ, hl']
      simp only [map_release hd.closed, map_release (digraph_erase hd hi).closed]
      refine Placed.cons ?_ k
      rw [hsplit] at hrest ⊢
      rw [List.filter_append] at hless ⊢
      exact ih hrest (hi.subset List.filter_sublist.subset) (by omega)

theorem order_insert (hd : Digraph (before ++ i :: after) es) (hi : Apart i es) :
    Placed i (order (before ++ i :: after) es).1 (order (before ++ after) es).1 := by
  have hlength : (before ++ i :: after).length = (before ++ after).length + 1 := by
    simp only [List.length_append, List.length_cons]
    omega
  unfold order
  rw [hlength]
  exact emitFrom_insert _ hd hi (Nat.le_refl _)

end Emission

end

-- ---------------------------------------------------------------------------
-- Graphs
-- ---------------------------------------------------------------------------

section
variable {before after : List Identity} {es : List Edge}

theorem Digraph.others_ne (hd : Digraph (before ++ i :: after) es) :
    ∀ j ∈ before ++ after, j.address ≠ i.address := by
  have hnodup := hd.nodes_nodup
  rw [List.map_append, List.map_cons, List.nodup_middle, List.nodup_cons,
    ← List.map_append] at hnodup
  exact fun j hj ha => hnodup.1 (ha ▸ List.mem_map_of_mem hj)

theorem Digraph.apart (hd : Digraph (before ++ i :: after) es) (hd' : Digraph (before ++ after) es) :
    Apart i es :=
  fun e he => ⟨hd.others_ne _ (hd'.source_mem e he), hd.others_ne _ (hd'.target_mem e he)⟩

end

namespace Graph

variable {g h : Graph} {before after : List Identity} (hd : Digraph g.nodes g.edges)
  (hd' : Digraph h.nodes h.edges) (he : h.edges = g.edges) (hn : g.nodes = before ++ after)
  (hn' : h.nodes = before ++ i :: after)
include hd hd' he hn hn'

theorem deferredEdges_insert : h.deferredEdges = g.deferredEdges := by
  unfold deferredEdges
  rw [he, hn'] at hd' ⊢
  rw [hn] at hd ⊢
  rw [Acyclic.components_insert hd' hd (hd'.apart hd)]

theorem plan_insert : Emission.Placed i h.plan.order g.plan.order := by
  have hretained : h.brokenView.retained = g.brokenView.retained := by
    unfold brokenView
    rw [deferredEdges_insert hd hd' he hn hn', he]
  have hview : Digraph h.nodes h.brokenView.retained := brokenView_digraph hd'
  have hview' : Digraph g.nodes g.brokenView.retained := brokenView_digraph hd
  show Emission.Placed i (Emission.order h.nodes h.brokenView.retained).1
    (Emission.order g.nodes g.brokenView.retained).1
  rw [hretained, hn'] at hview ⊢
  rw [hn] at hview' ⊢
  exact Emission.order_insert hview (hview.apart hview')

end Graph

/-- Planning with one more object that has a name, no references, and neither the
name nor the number of anything that the others are or refer to succeeds as
planning without it does, with the same edges, diagnostics and deferred
references. The order is the same too, but for the object at some place of it. -/
theorem bystander_ignored (front back : Batches) (label : String) (os more : List Object)
    (failedKinds : List Value)
    (hg : (Graph.build (front ++ (label, os ++ more) :: back) failedKinds).result = .ok g)
    (hv : g.breakCycles.result = .ok v) (hp : v.emit.result = .ok p)
    (hx : Bystander x (arrivals (front ++ (label, os ++ more) :: back))) :
    ∃ h w q, (Graph.build (front ++ (label, os ++ x :: more) :: back) failedKinds).result = .ok h ∧
      h.breakCycles.result = .ok w ∧ w.emit.result = .ok q ∧
      h.edges = g.edges ∧ h.diagnostics = g.diagnostics ∧ w.deferred = v.deferred ∧
      q.deferred = p.deferred ∧ Emission.Placed x.identity q.order p.order ∧
      ∀ i ∈ p.order, i.address ≠ x.identity.address := by
  have hold : arrivals (front ++ (label, os ++ more) :: back) =
      (arrivals front ++ os) ++ (more ++ arrivals back) := by simp [arrivals]
  have hnew : arrivals (front ++ (label, os ++ x :: more) :: back) =
      (arrivals front ++ os) ++ x :: (more ++ arrivals back) := by simp [arrivals]
  obtain ⟨known, later, hobjects, hbuild⟩ := (hold ▸ hx).build hold hnew hg
  have hd := build_digraph hg
  have hd' := build_digraph hbuild
  obtain ⟨hf, rfl⟩ := (Graph.breakCycles_ok hd).mp hv
  obtain rfl := Except.ok.inj ((emit_brokenView hd hf).symm.trans hp)
  refine ⟨_, _, _, hbuild, (Graph.breakCycles_ok hd').mpr ⟨hf, rfl⟩, emit_brokenView hd' hf, rfl,
    rfl, ?_⟩
  have hnodes : g.nodes = known.map (·.identity) ++ later.map (·.identity) := by
    rw [Graph.nodes, hobjects, List.map_append]
  have hnodes' : Graph.nodes { g with objects := known ++ x :: later } =
      known.map (·.identity) ++ x.identity :: later.map (·.identity) := by
    rw [Graph.nodes, List.map_append, List.map_cons]
  have hdeferred := Graph.deferredEdges_insert hd hd' rfl hnodes hnodes'
  refine ⟨hdeferred, hdeferred, Graph.plan_insert hd hd' rfl hnodes hnodes', fun i hi => ?_⟩
  have hi : i ∈ g.nodes := (fits_plan hd hf).order_perm.mem_iff.mp hi
  exact Digraph.others_ne (hnodes' ▸ hd') i (hnodes ▸ hi)

def shopColoured : Batches :=
  [("table", (arrivals shop).take 1 ++
      ⟨⟨.type, .name "shop.colour"⟩, [], [], some 16500⟩ :: ((arrivals shop).drop 1).take 1),
    ("sequence", (arrivals shop).drop 2)]

theorem bystander_ignored_shop : ∃ g v p h w q, (Graph.build shop []).result = .ok g ∧
    g.breakCycles.result = .ok v ∧ v.emit.result = .ok p ∧
    Bystander ⟨⟨.type, .name "shop.colour"⟩, [], [], some 16500⟩ (arrivals shop) ∧
    (Graph.build shopColoured []).result = .ok h ∧ h.breakCycles.result = .ok w ∧
    w.emit.result = .ok q ∧ h.edges = g.edges ∧
    Emission.Placed ⟨.type, .name "shop.colour"⟩ q.order p.order := by
  obtain ⟨p, hrun⟩ : ∃ p, (Graph.build shop [] >>= fun g => g.breakCycles >>= View.emit).result =
      .ok p := isOk_iff.mp (by decide +kernel)
  obtain ⟨g, hg, hrun⟩ := Traced.bind_ok.mp hrun
  obtain ⟨v, hv, hp⟩ := Traced.bind_ok.mp hrun
  have hx : Bystander ⟨⟨.type, .name "shop.colour"⟩, [], [], some 16500⟩ (arrivals shop) := by
    refine ⟨rfl, rfl, by decide, by decide, ?_, ?_⟩
    · rintro n hn
      obtain rfl := Option.some.inj hn
      decide
    · rintro n hn
      obtain rfl := Option.some.inj hn
      decide
  obtain ⟨h, w, q, hh, hw, hq, hedges, -, -, -, hplaced, -⟩ := bystander_ignored []
    [("sequence", (arrivals shop).drop 2)] "table" ((arrivals shop).take 1)
    (((arrivals shop).drop 1).take 1) [] hg hv hp hx
  exact ⟨g, v, p, h, w, q, hg, hv, hp, hx, hh, hw, hq, hedges, hplaced⟩

end CatalogPlan
