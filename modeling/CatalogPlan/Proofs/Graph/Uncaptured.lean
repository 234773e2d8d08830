import CatalogPlan.Proofs.Graph.Exact

/-!
# Edges to what was not captured

An edge leads to a captured object or to a schema that some reference names. Of these
schemas those that were not captured are added to the graph even when the capture of
schemas failed, though every other reference into a failed capture is fatal.
-/

namespace CatalogPlan

variable {os : List Object} {batches : Batches} {failedKinds : List Value} {g : Graph}

def Arrived (os : List Object) (i : Identity) : Prop :=
  ∃ o ∈ os, o.identity = i

theorem arrived_of_captured? (h : captured? os i = some o) : Arrived os o.identity :=
  ⟨o, (captured?_mem h).1, rfl⟩

theorem NeedsSchema.not_arrived (h : NeedsSchema os s) : ¬ Arrived os s := by
  rintro ⟨o, ho, rfl⟩
  exact captured?_eq_none_iff.mp (isNewSchema_iff.mp h.1).2.2 (List.mem_map_of_mem ho)

theorem Declares.target_cases (h : Declares os e) :
    Arrived os e.target ∨ NeedsSchema os e.target := by
  obtain ⟨o, ho, d, hd, first, t, c, hfirst, hres, -, -, rfl⟩ := h
  rcases Edge.orient_cases ⟨first.identity, t, c⟩ with heq | heq <;> rw [heq]
  · rcases resolved?_eq_some_iff.mp hres with ⟨k, hk, rfl⟩ | ⟨hnew, rfl⟩
    · exact .inl (arrived_of_captured? (registered?_mem hk))
    · exact .inr ⟨hnew, o, ho, d, hd, rfl⟩
  · exact .inl (arrived_of_captured? hfirst)

theorem Exact.edge_of_needsSchema (h : Exact os g) (hs : NeedsSchema os s) :
    ∃ e ∈ g.edges, e.target = s := by
  obtain ⟨hnew, o, ho, d, hd, rfl⟩ := hs
  obtain ⟨-, hkind, hnone⟩ := isNewSchema_iff.mp hnew
  have hother : d.target.same o.identity = false := by
    rw [Identity.same_eq_false]
    intro ha
    exact captured?_eq_none_iff.mp hnone (ha ▸ List.mem_map_of_mem ho)
  obtain ⟨k, hk⟩ := h.resolving o ho d hd _ (resolved?_of_newSchema hnew) hother
  obtain ⟨e, he, harc⟩ := h.joined k ⟨o, ho, d, hd, hk⟩
  refine ⟨e, he, ?_⟩
  obtain ⟨first, t, c, -, hres, -, -, rfl⟩ := hk
  obtain rfl := Option.some.inj ((resolved?_of_newSchema hnew).symm.trans hres)
  have hkeep : Edge.orient ⟨first.identity, d.target, c⟩ = ⟨first.identity, d.target, c⟩ := by
    simp [Edge.orient, hkind]
  rw [hkeep] at harc
  exact (Identity.eq_of_namespace (congrArg Prod.snd harc).symm hkind).symm

/-- Every edge leads to an object that was captured or to a schema that was not but is
named by a reference. So no edge into a failed capture leads to anything else than a
captured object exactly if schemas did not fail or all that are named were captured. -/
theorem edges_into_failed (h : (Graph.build batches failedKinds).result = .ok g) :
    ∃ failed, Graph.readKinds failedKinds = .ok failed ∧
      (∀ e ∈ g.edges, Arrived (arrivals batches) e.target ∨
        NeedsSchema (arrivals batches) e.target) ∧
      ((∀ e ∈ g.edges, e.target.kind ∈ failed → Arrived (arrivals batches) e.target) ↔
        (.namespace ∈ failed → ∀ s, ¬ NeedsSchema (arrivals batches) s)) := by
  obtain ⟨failed, hfailed, -⟩ := build_ok.mp h
  have hexact := build_exact h
  have hcases : ∀ e ∈ g.edges, Arrived (arrivals batches) e.target ∨
      NeedsSchema (arrivals batches) e.target :=
    fun e he => ((hexact.edges e).mp he).1.target_cases
  refine ⟨failed, hfailed, hcases, fun hall hschemas s hs => ?_, fun hnone e he hkind => ?_⟩
  · obtain ⟨e, he, rfl⟩ := hexact.edge_of_needsSchema hs
    have hkind : e.target.kind = .namespace := (isNewSchema_iff.mp hs.1).2.1
    exact hs.not_arrived (hall e he (hkind ▸ hschemas))
  · refine (hcases e he).resolve_right fun hs => ?_
    have hschema : e.target.kind = .namespace := (isNewSchema_iff.mp hs.1).2.1
    exact hnone (hschema ▸ hkind) e.target hs

theorem edges_into_failed_shop :
    ∃ g, (Graph.build shop [.text "table", .text "sequence"]).result = .ok g ∧
      (∃ e ∈ g.edges, e.target.kind = .table) ∧
      ∀ e ∈ g.edges, e.target.kind ∈ [Kind.table, .sequence] →
        Arrived (arrivals shop) e.target := by
  obtain ⟨g, hg⟩ : ∃ g, (Graph.build shop [.text "table", .text "sequence"]).result = .ok g :=
    isOk_iff.mp (by decide)
  have hedge : (Graph.build shop [.text "table", .text "sequence"]).result.toOption.all
      (·.edges.any (·.target.kind == .table)) = true := by decide
  rw [hg] at hedge
  obtain ⟨failed, hfailed, -, hlaw⟩ := edges_into_failed hg
  obtain rfl : [Kind.table, .sequence] = failed := Except.ok.inj hfailed
  refine ⟨g, hg, ?_, hlaw.mpr fun h => absurd h (by decide)⟩
  obtain ⟨e, he, hkind⟩ := List.any_eq_true.mp hedge
  exact ⟨e, he, beq_iff_eq.mp hkind⟩

def unreported : Batches :=
  [("table", [⟨⟨.table, .name "app.t"⟩, [], [⟨⟨.namespace, .name "app"⟩, none⟩], none⟩])]

theorem edge_into_failed_schema :
    ∃ g, (Graph.build unreported [.text "namespace"]).result = .ok g ∧
      Graph.readKinds [.text "namespace"] = .ok [.namespace] ∧
      ∃ e ∈ g.edges, e.target.kind = .namespace ∧ ¬ Arrived (arrivals unreported) e.target := by
  obtain ⟨g, hg⟩ : ∃ g, (Graph.build unreported [.text "namespace"]).result = .ok g :=
    isOk_iff.mp (by decide)
  have hedge : (Graph.build unreported [.text "namespace"]).result.toOption.all
      (·.edges.any (·.target == ⟨.namespace, .name "app"⟩)) = true := by decide
  rw [hg] at hedge
  obtain ⟨e, he, htarget⟩ := List.any_eq_true.mp hedge
  refine ⟨g, hg, rfl, e, he, ?_⟩
  rw [beq_iff_eq.mp htarget]
  exact ⟨rfl, by simp [Arrived, unreported, arrivals]⟩

end CatalogPlan
