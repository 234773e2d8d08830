import CatalogPlan.Proofs.Acyclic
import CatalogPlan.Proofs.Graph.Compared

/-!
# What body references change

A body refers to captured objects, and its references have a class of their own
that gives way to any other. So they neither fail nor are dropped, add no schema
and override no edge: the graph only gains references of routines.
-/

namespace CatalogPlan

open Acyclic (arcs fixed mem_fixed arcs_mono)
open Routine (bodyDependencies Known)

/-- Both graphs have the same objects, apart from what these refer to, and the same
dropped references, and the edges that the second one has besides are references
of routines. -/
structure Graph.Widened (g g' : Graph) : Prop where
  nodes : g.nodes = g'.nodes
  objects : g.objects.map Object.bare = g'.objects.map Object.bare
  diagnostics : g.diagnostics = g'.diagnostics
  kept : ∀ e ∈ g.edges, e ∈ g'.edges
  added : ∀ e ∈ g'.edges, e ∉ g.edges → e.edgeClass = .referential ∧ e.source.kind = .routine
  fixed : ∀ e, e.edgeClass ≠ .referential → (e ∈ g.edges ↔ e ∈ g'.edges)

-- ---------------------------------------------------------------------------
-- References that change nothing
-- ---------------------------------------------------------------------------

/-- A reference leads to a captured object, which is its source or is referred to
in a given class. -/
def Settled (os : List Object) (r : Identity × Dependency) : Prop :=
  ∃ o, registered? os r.2.target = some o ∧
    (r.2.edgeClass.isSome = true ∨ o.identity.same r.1 = true)

/-- A property of references that settled ones do not have, and that the point of
a reference decides. -/
structure Blind (os : List Object) (p : Identity × Dependency → Bool) : Prop where
  points : OfPoints p
  settled : ∀ r, Settled os r → p r = false

namespace Settled

variable {os : List Object}

theorem outcome_isOk (h : Settled os r) (failed : List Kind) : (outcome os failed r).isOk = true := by
  obtain ⟨o, ho, hclass⟩ := h
  rw [outcome_of_resolved (resolved?_eq_some_iff.mpr (.inl ⟨o, ho, rfl⟩))]
  split
  · rfl
  · rename_i hs
    obtain ⟨c, hc⟩ := Option.isSome_iff_exists.mp (hclass.resolve_right hs)
    rw [edgeClassOf, hc]
    rfl

end Settled

theorem Overlooks.blind (h : Overlooks os p) : Blind os p :=
  ⟨h.points, fun r ⟨o, ho, _⟩ => h.captured r o ho⟩

theorem blind_fails (os : List Object) (failed : List Kind) :
    Blind os fun r => !(outcome os failed r).isOk :=
  ⟨fun i _ _ h => by rw [outcome_isOk_congr os failed rfl h], fun _ h => by rw [h.outcome_isOk]; rfl⟩

theorem Edge.orient_referential (source target : Identity) :
    Edge.orient ⟨source, target, .referential⟩ = ⟨source, target, .referential⟩ := by
  simp [orient]

-- ---------------------------------------------------------------------------
-- Objects with more references
-- ---------------------------------------------------------------------------

inductive Extended (os : List Object) (o : Object) : Object → Prop
  | same : Extended os o o
  | referring (is : List Identity) (routine : o.kind = .routine)
      (captured : ∀ i ∈ is, ∃ k ∈ os, k.identity = i) :
      Extended os o (.make o.identity o.payload (o.dependencies ++ bodyDependencies is) o.oid)

theorem Routine.augment_extended [Sql.Parser] (h : (augment (Known.ofBatches batches) o).result = .ok o') :
    Extended (arrivals batches) o o' := by
  rcases augment_ok.mp h with ⟨-, rfl⟩ | ⟨sql, schemas, found, hbody, -, -, -, rfl⟩
  · exact .same
  · refine .referring _ ?_ fun i hi => (mem_bodyTargets hi).imp fun _ h => ⟨h.1, h.2.1⟩
    unfold searchedBody? at hbody
    simp only [Option.ite_none_right_eq_some, Bool.and_eq_true, beq_iff_eq] at hbody
    exact hbody.1.1.1.1

section
variable {os os' : List Object} {p : Identity × Dependency → Bool}

theorem Extended.bare (h : Extended os o o') : o.bare = o'.bare := by
  cases h <;> rfl

theorem Extended.identity (h : Extended os o o') : o.identity = o'.identity := by
  cases h <;> rfl

theorem map_bare_of_extended (hall : List.Forall₂ (Extended os) xs ys) :
    xs.map Object.bare = ys.map Object.bare :=
  map_bare_congr (hall.imp fun _ _ => Extended.bare)

/-- A property that is blind to settled references does not see what was added. -/
theorem Extended.filter_eq (h : Extended os o o') (hnamed : ∀ k ∈ os, k.identity.isNumeric = false)
    (hp : Blind os p) (ho : o ∈ os) (hs : o.identity.same i = true) :
    mergeDependencies [] (o'.dependencies.filter fun d => p (i, d)) =
      mergeDependencies [] (o.dependencies.filter fun d => p (i, d)) := by
  cases h with
  | same => rfl
  | referring is routine captured =>
    -- An object drops references to itself, which are settled as well.
    have hself : ∀ d : Dependency, d.target.same o.identity = true → p (i, d) = false := by
      intro d hd
      obtain ⟨k, hk, ha⟩ := registered?_captured (hnamed o ho) ho
      refine hp.settled _ ⟨k, ?_, .inr ?_⟩
      · rwa [registered?_congr os (Identity.same_iff.mp hd)]
      · rw [Identity.same_iff, ha, Identity.same_iff.mp hs]
    have hbody : (bodyDependencies is).filter (fun d => p (i, d)) = [] := by
      refine List.filter_eq_nil_iff.mpr fun d hd => ?_
      obtain ⟨j, hj, rfl⟩ := List.mem_map.mp hd
      obtain ⟨k, hk, rfl⟩ := captured j hj
      obtain ⟨first, hfirst, -⟩ := registered?_captured (hnamed k hk) hk
      rw [hp.settled _ ⟨first, hfirst, .inl rfl⟩]
      exact Bool.false_ne_true
    rw [make_filter hself, mergeDependencies_filter fun a b hab => hp.points i a b hab,
      List.filter_append, hbody, List.append_nil]
    exact mergeDependencies_merged _ _

-- ---------------------------------------------------------------------------
-- Snapshots with more references
-- ---------------------------------------------------------------------------

variable (hall : List.Forall₂ (Extended os) os os') (hnamed : ∀ o ∈ os, o.identity.isNumeric = false)
include hall hnamed

theorem alikeUnder_of_extended (hp : Blind os p) : List.Forall₂ (AlikeUnder p) os os' :=
  forall₂_imp_mem (fun _ ho _ _ h => ⟨h.bare, fun _ hs => (h.filter_eq hnamed hp ho hs).symm⟩) hall

theorem outcomes_error (failed : List Kind) :
    (orderedReferences os).mapM (outcome os failed) = .error fault ↔
      (orderedReferences os').mapM (outcome os' failed) = .error fault := by
  have hout : outcome os failed = outcome os' failed :=
    eq_of_bare (f := fun os => outcome os failed) (fun os => funext (outcome_bare os failed))
      (map_bare_of_extended hall)
  rw [mapM_error_iff, orderedReferences_alike (blind_fails os failed).points
    (alikeUnder_of_extended hall hnamed (blind_fails os failed)), hout, ← mapM_error_iff]

-- ---------------------------------------------------------------------------
-- Edges
-- ---------------------------------------------------------------------------

theorem Declares.extended (h : Declares os e) : Declares os' e := by
  obtain ⟨o, ho, d, hd, hb⟩ := h
  obtain ⟨o', ho', hext⟩ := forall₂_mem_left hall ho
  have hb' : Becomes os' o' d e := by
    rw [← becomes_bare, ← map_bare_of_extended hall, becomes_bare]
    exact hb.congr (congrArg Identity.address hext.identity) rfl
  cases hext with
  | same => exact ⟨_, ho', d, hd, hb'⟩
  | referring is routine captured =>
    have hpoint : d.point ∈ (Object.make o.identity o.payload (o.dependencies ++ bodyDependencies is)
        o.oid).dependencies.map Dependency.point := by
      refine Routine.mem_make_points.mpr ⟨?_, hb.target_ne (hnamed o ho) ho⟩
      exact List.mem_map_of_mem (List.mem_append_left _ hd)
    obtain ⟨d', hd', hp⟩ := List.mem_map.mp hpoint
    exact ⟨_, ho', d', hd', hb'.congr rfl hp.symm⟩

omit hnamed in
theorem Declares.of_extended (hcons : Consistent os) (h : Declares os' e) :
    Declares os e ∨ e.edgeClass = .referential ∧ e.source.kind = .routine := by
  obtain ⟨o', ho', d', hd', hb'⟩ := h
  obtain ⟨o, ho, hext⟩ := forall₂_mem_right hall ho'
  have hb : Becomes os o d' e := by
    rw [← becomes_bare, map_bare_of_extended hall, becomes_bare]
    exact hb'.congr (congrArg Identity.address hext.identity.symm) rfl
  cases hext with
  | same => exact .inl ⟨_, ho, d', hd', hb⟩
  | referring is routine captured =>
    have hpoint := (Routine.mem_make_points.mp (List.mem_map_of_mem hd')).1
    rw [List.map_append, List.mem_append] at hpoint
    rcases hpoint with hown | hbody
    · obtain ⟨d, hd, hp⟩ := List.mem_map.mp hown
      exact .inl ⟨o, ho, d, hd, hb.congr rfl hp.symm⟩
    · obtain ⟨d, hd, hp⟩ := List.mem_map.mp hbody
      obtain ⟨i, -, rfl⟩ := List.mem_map.mp hd
      obtain ⟨first, t, c, hfirst, -, -, hclass, rfl⟩ := hb.congr rfl hp.symm
      obtain rfl : .referential = c := Except.ok.inj hclass
      refine .inr ?_
      rw [Edge.orient_referential]
      exact ⟨rfl, (hcons.captured_kind ho hfirst).trans routine⟩

-- ---------------------------------------------------------------------------
-- Graphs
-- ---------------------------------------------------------------------------

omit hnamed in
theorem widened_assembled (hcons : Consistent os) {found found' : List (Option Edge)}
    (h : (orderedReferences os).mapM (outcome os failed) = .ok found)
    (h' : (orderedReferences os').mapM (outcome os' failed) = .ok found') :
    (assembled os (orderedReferences os) found).Widened
      (assembled os' (orderedReferences os') found') := by
  have hkept : ∀ e ∈ (assembled os (orderedReferences os) found).edges,
      e ∈ (assembled os' (orderedReferences os') found').edges := by
    intro e he
    obtain ⟨hd, hmax⟩ := (mem_assembled_edges h).mp he
    refine (mem_assembled_edges h').mpr ⟨hd.extended hall hcons.named, fun k hk ha => ?_⟩
    -- What bodies declare besides is of the least binding class.
    rcases hk.of_extended hall hcons with hk | ⟨hclass, -⟩
    · exact hmax k hk ha
    · rw [hclass]
      exact Nat.zero_le _
  have hadded : ∀ e ∈ (assembled os' (orderedReferences os') found').edges,
      e ∉ (assembled os (orderedReferences os) found).edges →
        e.edgeClass = .referential ∧ e.source.kind = .routine := by
    intro e he hnot
    obtain ⟨hd, hmax⟩ := (mem_assembled_edges h').mp he
    refine (hd.of_extended hall hcons).resolve_left fun hown => hnot ?_
    exact (mem_assembled_edges h).mpr ⟨hown, fun k hk => hmax k (hk.extended hall hcons.named)⟩
  have hobjects : (assembled os (orderedReferences os) found).objects.map Object.bare =
      (assembled os' (orderedReferences os') found').objects.map Object.bare := by
    simp only [assembled, List.map_append, ← firsts_bare, map_bare_of_extended hall,
      newSchemas_congr (map_bare_of_extended hall)
        (alikeUnder_of_extended hall hcons.named (overlooks_newSchema os).blind)]
  have hnodes := congrArg (List.map (·.identity)) hobjects
  rw [List.map_map, List.map_map] at hnodes
  refine ⟨hnodes, hobjects, diagnostics_congr (map_bare_of_extended hall)
    (alikeUnder_of_extended hall hcons.named (overlooks_unresolved os).blind), hkept, hadded,
    fun e hclass => ⟨hkept e, fun he => ?_⟩⟩
  by_contra hnot
  exact hclass (hadded e he hnot).1

end

theorem Graph.Widened.unbreakable_iff (h : Graph.Widened g g') (hd : Digraph g.nodes g.edges)
    (hd' : Digraph g'.nodes g'.edges) :
    (∃ identities edges, g.breakCycles.result = .error (.unbreakable identities edges)) ↔
      ∃ identities edges, g'.breakCycles.result = .error (.unbreakable identities edges) := by
  have hfixed : ∀ e, e ∈ Acyclic.fixed g.edges ↔ e ∈ Acyclic.fixed g'.edges := by
    intro e
    rw [mem_fixed, mem_fixed, and_congr_left_iff]
    intro hclass
    refine h.fixed e fun hr => ?_
    rw [hr] at hclass
    cases hclass
  rw [breakCycles_unbreakable hd, breakCycles_unbreakable hd']
  refine not_congr ⟨Reach.Acyclic.mono (arcs_mono ?_), Reach.Acyclic.mono (arcs_mono ?_)⟩
  · exact fun e he => (hfixed e).mpr he
  · exact fun e he => (hfixed e).mp he

/-- Body references do no harm: with them a build fails in the same way as without
them, and otherwise its graph only gains references of routines, which do not
decide whether the cycles can be broken. -/
theorem augmentAll_widens [Sql.Parser] {failedKinds : List Value} (h : (Routine.augmentAll batches).result = .ok b) :
    (∀ fault, (Graph.build batches failedKinds).result = .error fault ↔
      (Graph.build b failedKinds).result = .error fault) ∧
    ∀ g g', (Graph.build batches failedKinds).result = .ok g →
      (Graph.build b failedKinds).result = .ok g' →
        g.Widened g' ∧
        ((∃ identities edges, g.breakCycles.result = .error (.unbreakable identities edges)) ↔
          ∃ identities edges, g'.breakCycles.result = .error (.unbreakable identities edges)) := by
  have hall : List.Forall₂ (Extended (arrivals batches)) (arrivals batches) (arrivals b) :=
    (Routine.augmentAll_arrivals h).imp fun _ _ => Routine.augment_extended
  have hbare := map_bare_of_extended hall
  have hcons := consistent_bare hbare
  constructor
  · intro fault
    rw [build_error, build_error]
    refine or_congr_right (exists_congr fun failed => and_congr_right fun _ => or_congr ?_ ?_)
    · exact Collection.ofObjects_error_bare hbare
    · rw [← hcons]
      exact and_congr_right fun hc => outcomes_error hall hc.named _
  · intro g g' hg hg'
    obtain ⟨failed, hfailed, hc, found, hfound, rfl⟩ := build_ok.mp hg
    obtain ⟨failed', hfailed', hc', found', hfound', rfl⟩ := build_ok.mp hg'
    obtain rfl := Except.ok.inj (hfailed.symm.trans hfailed')
    have hwide := widened_assembled hall hc hfound hfound'
    exact ⟨hwide, hwide.unbreakable_iff ((exact_assembled hc.named hfound).digraph hc.named)
      ((exact_assembled hc'.named hfound').digraph hc'.named)⟩

def ledger : Batches :=
  [("table",
      [⟨⟨.table, .name "app.orders"⟩, [], [⟨⟨.namespace, .name "app"⟩, none⟩, ⟨⟨.type, .oid 23⟩, none⟩],
        some 16400⟩]),
    ("function_or_procedure",
      [⟨⟨.routine, .name "app.total()"⟩,
        [("language", .text "sql"), ("source", .text "select count(*) from orders")], [], none⟩])]

theorem augmentAll_widens_ledger : ∃ b g g', (Routine.augmentAll ledger).result = .ok b ∧
    (Graph.build ledger []).result = .ok g ∧ (Graph.build b []).result = .ok g' ∧
      g.edges.length = 1 ∧ g'.edges.length = 2 ∧ g.Widened g' := by
  have hplain : (Graph.build ledger []).result.toOption.map (·.edges.length) = some 1 := by
    decide +kernel
  have hwide : ((Routine.augmentAll ledger).result.toOption.bind fun b =>
      (Graph.build b []).result.toOption).map (·.edges.length) = some 2 := by decide +kernel
  obtain ⟨g, hg, hone⟩ := Option.map_eq_some_iff.mp hplain
  obtain ⟨g', hg', htwo⟩ := Option.map_eq_some_iff.mp hwide
  obtain ⟨b, hb, hg'⟩ := Option.bind_eq_some_iff.mp hg'
  rw [toOption_eq_some] at hg hb hg'
  exact ⟨b, g, g', hb, hg, hg', hone, htwo, ((augmentAll_widens hb).2 g g' hg hg').1⟩

end CatalogPlan
