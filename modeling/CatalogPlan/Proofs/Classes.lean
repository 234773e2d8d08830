import CatalogPlan.Proofs.Planning

/-!
# Classes in the order of their first members

Each class of mutually dependent objects has a first member, the one with the
least sort key, and cycle breaking goes through the classes in the order of
those.
-/

namespace CatalogPlan.Acyclic

open Reach (OnCycle Mutual)

/-- The first member of a class: no object that depends on it and on which it
depends has a lesser sort key. -/
structure Leads (nodes : List Identity) (es : List Edge) (i : Identity) : Prop where
  mem : i ∈ nodes
  le : ∀ j ∈ nodes, Mutual (arcs es) i.address j.address → sortKeyLe i.sortKey j.sortKey = true

variable {nodes : List Identity} {es : List Edge}

theorem Leads.unique (hd : Digraph nodes es) (hi : Leads nodes es i) (hj : Leads nodes es j)
    (h : Mutual (arcs es) i.address j.address) : i = j :=
  hd.eq_of_sortKey i hi.mem j hj.mem
    (linearLe_sortKey.antisymm _ _ (hi.le j hj.mem h) (hj.le i hi.mem h.symm))

/-- The members of a class are listed by sort key, its first member in front. -/
theorem exists_leads (es : List Edge) (hi : i ∈ nodes) : ∃ first, Leads nodes es first ∧
    Mutual (arcs es) i.address first.address ∧ (memberClass nodes es i).head? = some first := by
  have hself : i ∈ memberClass nodes es i := mem_memberClass.mpr ⟨hi, .refl ..⟩
  have hsorted : (memberClass nodes es i).Pairwise fun j k =>
      sortKeyLe j.sortKey k.sortKey = true := sortOn_pairwise linearLe_sortKey _ _
  obtain ⟨first, rest, heq⟩ := List.exists_cons_of_ne_nil (List.ne_nil_of_mem hself)
  obtain ⟨hfirst, hmutual⟩ := mem_memberClass.mp (heq ▸ List.mem_cons_self)
  refine ⟨first, ⟨hfirst, fun j hj hm => ?_⟩, hmutual, by rw [heq]; rfl⟩
  rw [heq] at hsorted
  have hmem : j ∈ first :: rest := heq ▸ mem_memberClass.mpr ⟨hj, hmutual.trans hm⟩
  rcases List.mem_cons.mp hmem with rfl | hrest
  · exact linearLe_sortKey.refl _
  · exact (List.pairwise_cons.mp hsorted).1 j hrest

theorem Leads.head? (hd : Digraph nodes es) (h : Leads nodes es i) :
    (memberClass nodes es i).head? = some i := by
  obtain ⟨first, hfirst, hmutual, hhead⟩ := exists_leads es h.mem
  rw [hhead, h.unique hd hfirst hmutual]

theorem mem_components_leads {component : List Identity} (hd : Digraph nodes es) :
    component ∈ components nodes es ↔ ∃ first, Leads nodes es first ∧
      OnCycle (arcs es) first.address ∧ component = memberClass nodes es first := by
  rw [mem_components hd]
  constructor
  · rintro ⟨i, hi, hc, rfl⟩
    obtain ⟨first, hfirst, hmutual, -⟩ := exists_leads es hi
    exact ⟨first, hfirst, hmutual.onCycle hc, memberClass_eq hmutual⟩
  · rintro ⟨first, hfirst, hc, rfl⟩
    exact ⟨first, hfirst.mem, hc, rfl⟩

theorem components_sorted (hd : Digraph nodes es) :
    (components nodes es).Pairwise fun c d => ∀ i j, Leads nodes es i → Leads nodes es j →
      c = memberClass nodes es i → d = memberClass nodes es j →
        sortKeyLe i.sortKey j.sortKey = true := by
  refine (sortOn_pairwise linearLe_sortKey _ _).imp ?_
  rintro _ _ hle i j hi hj rfl rfl
  simpa [hi.head? hd, hj.head? hd] using hle

end CatalogPlan.Acyclic
