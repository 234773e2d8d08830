import CatalogPlan.Proofs.Graph.Exact

/-!
# Tables and their sequences

A table and its sequence may both declare that the table owns the sequence, often
and with or without a class: the graph has one edge for it, from the table to the
sequence. An edge back to the table is there only when the sequence declares it in
another class.
-/

namespace CatalogPlan

variable {os : List Object} {batches : Batches} {failedKinds : List Value} {g : Graph}
  {table sequence : Identity}

def Owning (source target : Identity) : Prop :=
  source.kind = .table ∧ target.kind = .sequence ∨ source.kind = .sequence ∧ target.kind = .table

/-- Some arrival of an object refers to another in a class, where a reference that
was given none is an ownership. -/
def Links (os : List Object) (source target : Identity) (c : EdgeClass) : Prop :=
  ∃ o ∈ os, o.identity.same source = true ∧ ∃ d ∈ o.dependencies,
    resolved? os d.target = some target ∧ d.edgeClass.getD .ownership = c

-- ---------------------------------------------------------------------------
-- Classes and directions
-- ---------------------------------------------------------------------------

theorem defaultEdgeClass_owning (h : Owning o.identity target) :
    defaultEdgeClass o target = .ok .ownership := by
  unfold defaultEdgeClass Object.kind
  rcases h with ⟨hs, ht⟩ | ⟨hs, ht⟩ <;> simp [hs, ht, classifyEdge, pure, Except.pure]

theorem edgeClass_owning (h : Owning o.identity target) (d : Dependency) :
    d.edgeClass.elim (defaultEdgeClass o target) .ok = .ok (d.edgeClass.getD .ownership) := by
  cases d.edgeClass with
  | none => exact defaultEdgeClass_owning h
  | some c => rfl

theorem EdgeClass.binding_le (c : EdgeClass) : c.binding ≤ EdgeClass.ownership.binding := by
  cases c <;> simp [binding]

namespace Edge

theorem orient_of_table {e : Edge} (h : e.source.kind = .table) : e.orient = e := by
  simp [orient, h]

theorem orient_of_sequence {source target : Identity} (hs : source.kind = .sequence)
    (ht : target.kind = .table) :
    orient ⟨source, target, .ownership⟩ = ⟨target, source, .ownership⟩ := by
  simp [orient, hs, ht]

theorem orient_of_other {e : Edge} (h : e.edgeClass ≠ .ownership) : e.orient = e := by
  simp [orient, h]

theorem orient_inv {source target : Identity} {c : EdgeClass} (h : orient ⟨source, target, c⟩ = e) :
    (source.kind = .sequence ∧ target.kind = .table ∧ c = .ownership) ∧ e = ⟨target, source, .ownership⟩ ∨
      ¬(source.kind = .sequence ∧ target.kind = .table ∧ c = .ownership) ∧ e = ⟨source, target, c⟩ := by
  unfold orient at h
  split at h
  · rename_i hturn
    exact .inl ⟨hturn, h.symm⟩
  · rename_i hkeep
    exact .inr ⟨hkeep, h.symm⟩

end Edge

-- ---------------------------------------------------------------------------
-- Edges between a table and a sequence
-- ---------------------------------------------------------------------------

theorem Exact.eq_of_address (h : Exact os g) (hi : i ∈ g.nodes) (hj : j ∈ g.nodes)
    (ha : i.address = j.address) : i = j :=
  List.inj_on_of_nodup_map h.nodes_nodup hi hj ha

theorem owning_of_orient {source target : Identity} {c : EdgeClass}
    (h : Edge.orient ⟨source, target, c⟩ = e) (he : Owning e.source e.target) :
    Owning source target := by
  rcases Edge.orient_inv h with ⟨⟨hs, ht, -⟩, -⟩ | ⟨-, rfl⟩
  · exact .inr ⟨hs, ht⟩
  · exact he

theorem Declares.links (h : Declares os e) (he : Owning e.source e.target) :
    ∃ source target c, Links os source target c ∧ Owning source target ∧
      e = Edge.orient ⟨source, target, c⟩ := by
  obtain ⟨o, ho, d, hd, first, t, c, hfirst, hres, -, hclass, rfl⟩ := h
  have howning := owning_of_orient rfl he
  rw [edgeClass_owning howning] at hclass
  exact ⟨first.identity, t, c, ⟨o, ho, Identity.same_iff.mpr (captured?_mem hfirst).2.symm, d, hd, hres,
    Except.ok.inj hclass⟩, howning, rfl⟩

theorem Exact.declares_of_links (h : Exact os g) (hs : source ∈ g.nodes) (ht : target ∈ g.nodes)
    (howning : Owning source target) (hlinks : Links os source target c) :
    Declares os (Edge.orient ⟨source, target, c⟩) := by
  obtain ⟨o, ho, hsame, d, hd, hres, hclass⟩ := hlinks
  have ha := Identity.same_iff.mp hsame
  have hne : target.same o.identity = false := by
    rw [Identity.same_eq_false, ha]
    intro heq
    obtain rfl := h.eq_of_address ht hs heq
    rcases howning with ⟨hk, hk'⟩ | ⟨hk, hk'⟩ <;> simp [hk] at hk'
  obtain ⟨first, -, hfirst, -⟩ := reference_of_arrival ho hd
  obtain ⟨-, hfa⟩ := captured?_mem hfirst
  have hmem : first ∈ g.objects := (h.objects first).mpr (.inl (by rwa [captured?_congr os hfa]))
  obtain rfl : first.identity = source :=
    h.eq_of_address (List.mem_map_of_mem hmem) hs (hfa.trans ha)
  refine ⟨o, ho, d, hd, first, target, c, hfirst, hres, hne, ?_, rfl⟩
  rw [edgeClass_owning howning, hclass]

/-- Between a table and a sequence there is one edge to the sequence for all that
declares it owned, and one back for what the sequence declares in other classes. -/
structure OwnedOnce (os : List Object) (g : Graph) (table sequence : Identity) : Prop where
  owned : ⟨table, sequence, .ownership⟩ ∈ g.edges ↔
    Links os table sequence .ownership ∨ Links os sequence table .ownership
  only : ⟨table, sequence, .ownership⟩ ∈ g.edges →
    ∀ e ∈ g.edges, e.joins table sequence = true → e = ⟨table, sequence, .ownership⟩
  back : (∃ e ∈ g.edges, e.joins sequence table = true) ↔
    Links os sequence table .structural ∨ Links os sequence table .referential
  back_class : ∀ e ∈ g.edges, e.joins sequence table = true →
    e.edgeClass ≠ .ownership ∧ Links os sequence table e.edgeClass

section
variable (h : Exact os g) (ht : table ∈ g.nodes) (hs : sequence ∈ g.nodes)
  (hkt : table.kind = .table) (hks : sequence.kind = .sequence)
include h ht hs hkt hks

theorem Exact.owned_iff : ⟨table, sequence, .ownership⟩ ∈ g.edges ↔
    Links os table sequence .ownership ∨ Links os sequence table .ownership := by
  constructor
  · intro he
    obtain ⟨s, t, c, hlinks, -, horient⟩ := ((h.edges _).mp he).1.links (.inl ⟨hkt, hks⟩)
    rcases Edge.orient_inv horient.symm with ⟨⟨-, -, rfl⟩, heq⟩ | ⟨-, heq⟩
    · cases heq
      exact .inr hlinks
    · cases heq
      exact .inl hlinks
  · intro hlinks
    have hd : Declares os ⟨table, sequence, .ownership⟩ := by
      rcases hlinks with hlinks | hlinks
      · have hd := h.declares_of_links ht hs (.inl ⟨hkt, hks⟩) hlinks
        rwa [Edge.orient_of_table hkt] at hd
      · have hd := h.declares_of_links hs ht (.inr ⟨hks, hkt⟩) hlinks
        rwa [Edge.orient_of_sequence hks hkt] at hd
    exact (h.edges _).mpr ⟨hd, fun k _ _ => k.edgeClass.binding_le⟩

theorem Exact.back_class (he : e ∈ g.edges) (hj : e.joins sequence table = true) :
    e.edgeClass ≠ .ownership ∧ Links os sequence table e.edgeClass := by
  obtain ⟨hsa, hta⟩ := Prod.mk.inj (Edge.joins_iff.mp hj)
  have hsource := h.eq_of_address (h.ends e he).1 hs hsa
  have htarget := h.eq_of_address (h.ends e he).2 ht hta
  have howning : Owning e.source e.target := .inr ⟨hsource ▸ hks, htarget ▸ hkt⟩
  obtain ⟨s, t, c, hlinks, -, horient⟩ := ((h.edges e).mp he).1.links howning
  rcases Edge.orient_inv horient.symm with ⟨⟨-, hkind, -⟩, rfl⟩ | ⟨hkeep, rfl⟩
  · -- A turned edge comes from a table.
    cases hsource
    cases hks.symm.trans hkind
  · cases hsource
    cases htarget
    exact ⟨fun hc => hkeep ⟨hks, hkt, hc⟩, hlinks⟩

theorem Exact.back_of_links (hc : c ≠ .ownership) (hlinks : Links os sequence table c) :
    ∃ e ∈ g.edges, e.joins sequence table = true := by
  have hd := h.declares_of_links hs ht (.inr ⟨hks, hkt⟩) hlinks
  rw [Edge.orient_of_other hc] at hd
  obtain ⟨e, he, ha⟩ := h.joined _ hd
  exact ⟨e, he, Edge.joins_iff.mpr ha⟩

end

/-- In every graph that is built a table owns a sequence once, whatever the two
declare; only a sequence that declares another class has an edge to the table. -/
theorem build_ownedOnce (h : (Graph.build batches failedKinds).result = .ok g)
    (ht : table ∈ g.nodes) (hs : sequence ∈ g.nodes) (hkt : table.kind = .table)
    (hks : sequence.kind = .sequence) : OwnedOnce (arrivals batches) g table sequence := by
  have hexact := build_exact h
  refine ⟨hexact.owned_iff ht hs hkt hks, fun howned e he hj => ?_, ⟨?_, ?_⟩,
    fun e he hj => hexact.back_class ht hs hkt hks he hj⟩
  · exact List.inj_on_of_nodup_map hexact.arcs_nodup he howned (Edge.joins_iff.mp hj)
  · rintro ⟨e, he, hj⟩
    obtain ⟨hc, hlinks⟩ := hexact.back_class ht hs hkt hks he hj
    cases hclass : e.edgeClass with
    | structural => exact .inl (hclass ▸ hlinks)
    | referential => exact .inr (hclass ▸ hlinks)
    | ownership => exact absurd hclass hc
  · rintro (hlinks | hlinks)
    · exact hexact.back_of_links ht hs hkt hks (by decide) hlinks
    · exact hexact.back_of_links ht hs hkt hks (by decide) hlinks

def pinned : Batches :=
  [("table",
      [⟨⟨.table, .name "app.t"⟩, [], [⟨⟨.sequence, .name "app.s"⟩, none⟩], none⟩]),
    ("sequence",
      [⟨⟨.sequence, .name "app.s"⟩, [],
        [⟨⟨.table, .name "app.t"⟩, none⟩, ⟨⟨.table, .name "app.t"⟩, some .structural⟩], none⟩])]

theorem pinned_edges : ∃ g, (Graph.build pinned []).result = .ok g ∧
    g.nodes = [⟨.table, .name "app.t"⟩, ⟨.sequence, .name "app.s"⟩] ∧
    g.edges = [⟨⟨.table, .name "app.t"⟩, ⟨.sequence, .name "app.s"⟩, .ownership⟩,
      ⟨⟨.sequence, .name "app.s"⟩, ⟨.table, .name "app.t"⟩, .structural⟩] :=
  ⟨_, rfl, rfl, rfl⟩

theorem owned_and_back_pinned : ∃ g, (Graph.build pinned []).result = .ok g ∧ ∃ e ∈ g.edges,
    e.source.kind = .table ∧ e.target.kind = .sequence ∧ e.edgeClass = .ownership ∧
      ∃ k ∈ g.edges, k.joins e.target e.source = true := by
  obtain ⟨g, hg, -, hedges⟩ := pinned_edges
  refine ⟨g, hg, ?_⟩
  rw [hedges]
  decide

theorem build_ownedOnce_pinned : ∃ g, (Graph.build pinned []).result = .ok g ∧
    OwnedOnce (arrivals pinned) g ⟨.table, .name "app.t"⟩ ⟨.sequence, .name "app.s"⟩ := by
  obtain ⟨g, hg, hnodes, -⟩ := pinned_edges
  exact ⟨g, hg, build_ownedOnce hg (by simp [hnodes]) (by simp [hnodes]) rfl rfl⟩

end CatalogPlan
