import CatalogPlan.Proofs.Canonical
import CatalogPlan.Proofs.Graph.Compared

/-!
# Body references only add

Searching the bodies of routines keeps all batches as they are, but for routines in
SQL: these gain references, and lose none. What names stand for does not depend on
references, so searching a second time finds what is there already.
-/

namespace CatalogPlan

variable {os : List Object} {batches b : Batches} {o o' : Object}

-- ---------------------------------------------------------------------------
-- Objects as they are made
-- ---------------------------------------------------------------------------

/-- An object has every reference once, and none to itself. -/
structure Object.Formed (o : Object) : Prop where
  distinct : (o.dependencies.map Dependency.point).Nodup
  foreign : ∀ d ∈ o.dependencies, d.target.same o.identity = false

instance (o : Object) : Decidable o.Formed :=
  decidable_of_iff ((o.dependencies.map Dependency.point).Nodup ∧
    ∀ d ∈ o.dependencies, d.target.same o.identity = false)
    ⟨fun ⟨hd, hf⟩ => ⟨hd, hf⟩, fun ⟨hd, hf⟩ => ⟨hd, hf⟩⟩

namespace Object

theorem make_formed (i : Identity) (payload : Fields) (ds : List Dependency) (oid : Option Int) :
    (make i payload ds oid).Formed := by
  refine ⟨?_, fun d hd => ?_⟩
  · have hnodup : ((mergeDependencies [] ds).map Dependency.point).Nodup :=
      mergeDependencies_points_nodup (by simp) ds
    exact hnodup.sublist (List.Sublist.map _ List.filter_sublist)
  · simpa [make] using (List.mem_filter.mp hd).2

theorem ofRecord_formed (h : ofRecord v = .ok o) : o.Formed := by
  obtain ⟨fields, raw, i, payload, ds, oid, -, -, -, -, rfl⟩ := ofRecord_made h
  exact make_formed i payload ds oid

theorem make_again (i : Identity) (payload : Fields) (ds more : List Dependency) (oid : Option Int) :
    make i payload ((make i payload (ds ++ more) oid).dependencies ++ more) oid =
      make i payload (ds ++ more) oid := by
  have hin : ∀ d ∈ more, d.point ∈ (mergeDependencies [] (ds ++ more)).map Dependency.point := by
    intro d hd
    refine mem_mergeDependencies_points.mpr (.inr ?_)
    exact List.mem_map_of_mem (List.mem_append_right ds hd)
  rw [make_append, make, mergeDependencies_append, mergeDependencies_of_subset hin, make]

theorem Formed.make_extends (h : o.Formed) (more : List Dependency) :
    ∃ new, (make o.identity o.payload (o.dependencies ++ more) o.oid).dependencies =
        o.dependencies ++ new ∧ ∀ d ∈ new, d ∈ more ∧ d.target.same o.identity = false := by
  have hown : o.dependencies.filter (fun d => !d.target.same o.identity) = o.dependencies := by
    rw [List.filter_eq_self]
    intro d hd
    rw [h.foreign d hd, Bool.not_false]
  obtain ⟨new, hnew, hs⟩ := mergeDependencies_extends o.dependencies
    (more.filter fun d => !d.target.same o.identity)
  refine ⟨new, ?_, fun d hd => ?_⟩
  · rw [make, mergeDependencies_append, mergeDependencies_of_nodup h.distinct,
      mergeDependencies_filter (foreign_congr o.identity), hown, hnew]
  · simpa using List.mem_filter.mp (hs.subset hd)

end Object

namespace Routine

-- ---------------------------------------------------------------------------
-- One object
-- ---------------------------------------------------------------------------

/-- A routine in SQL with a source that the database has not parsed. -/
structure Unparsed (o : Object) : Prop where
  routine : o.kind = .routine
  language : o.payload.get "language" = .text "sql"
  unparsed : (o.payload.get "is_pre_parsed").isTruthy = false
  source : (o.payload.get "source").isTruthy = true

theorem unparsed_of_searchedBody? (h : searchedBody? o = some v) : Unparsed o := by
  unfold searchedBody? at h
  simp only [Option.ite_none_right_eq_some, Bool.and_eq_true, beq_iff_eq, Bool.not_eq_true'] at h
  obtain ⟨⟨⟨⟨hroutine, hsql⟩, hparsed⟩, hsource⟩, -⟩ := h
  refine ⟨hroutine, ?_, hparsed, hsource⟩
  cases hl : o.payload.get "language" with
  | text language =>
    rw [hl] at hsql
    rw [beq_iff_eq.mp hsql]
  | _ =>
    rw [hl] at hsql
    cases hsql

/-- What searching makes of an object of some snapshot: it may gain references to
captured relations and routines, and nothing else changes. -/
structure Augmented (os : List Object) (o o' : Object) : Prop where
  formed : o'.Formed
  identity : o'.identity = o.identity
  payload : o'.payload = o.payload
  oid : o'.oid = o.oid
  unchanged : ¬Unparsed o → o' = o
  added : ∃ new, o'.dependencies = o.dependencies ++ new ∧ ∀ d ∈ new,
    d.edgeClass = some .referential ∧ d.target.same o.identity = false ∧
      ∃ k ∈ os, k.identity = d.target ∧ (isRelation k.kind = true ∨ k.kind = .routine)

theorem augment_augmented [Sql.Parser] (hf : o.Formed)
    (h : (augment (Known.ofBatches batches) o).result = .ok o') : Augmented (arrivals batches) o o' := by
  rcases augment_ok.mp h with ⟨-, rfl⟩ | ⟨sql, schemas, found, hbody, -, -, -, rfl⟩
  · exact ⟨hf, rfl, rfl, rfl, fun _ => rfl, [], by simp, by simp⟩
  · have hunparsed := unparsed_of_searchedBody? hbody
    refine ⟨Object.make_formed _ _ _ _, rfl, rfl, rfl, fun hnot => absurd hunparsed hnot, ?_⟩
    obtain ⟨new, hnew, hmem⟩ := hf.make_extends
      (bodyDependencies (bodyTargets (Known.ofBatches batches) schemas found))
    refine ⟨new, hnew, fun d hd => ?_⟩
    obtain ⟨hd, hself⟩ := hmem d hd
    obtain ⟨i, hi, rfl⟩ := List.mem_map.mp hd
    exact ⟨rfl, hself, mem_bodyTargets hi⟩

theorem augment_again [Sql.Parser] {known : Known} (h : (augment known o).result = .ok o') :
    (augment known o').result = .ok o' := by
  rcases augment_ok.mp h with ⟨hbody, rfl⟩ | ⟨sql, schemas, found, hbody, hs, hf, hw, rfl⟩
  · exact augment_ok.mpr (.inl ⟨hbody, rfl⟩)
  · refine augment_ok.mpr (.inr ⟨sql, schemas, found, hbody, hs, hf, hw, ?_⟩)
    exact (Object.make_again o.identity o.payload o.dependencies _ o.oid).symm

-- ---------------------------------------------------------------------------
-- All batches
-- ---------------------------------------------------------------------------

/-- Searching only adds, and adds all at once: every batch keeps its label and its
objects, these gain references at most, and searching again gives the same batches. -/
theorem augmentAll_conservative [Sql.Parser] (hf : ∀ o ∈ arrivals batches, o.Formed)
    (h : (augmentAll batches).result = .ok b) :
    List.Forall₂ (fun x y => x.1 = y.1 ∧ List.Forall₂ (Augmented (arrivals batches)) x.2 y.2)
      batches b ∧ (augmentAll b).result = .ok b := by
  have hall := augmentAll_ok.mp h
  constructor
  · refine forall₂_imp_mem (fun x hx y _ hxy => ⟨hxy.1, ?_⟩) hall
    refine forall₂_imp_mem (fun o ho _ _ hoo' => augment_augmented (hf o ?_) hoo') hxy.2
    exact List.mem_flatMap.mpr ⟨x, hx, ho⟩
  · rw [augmentAll_ok, ofBatches_bare (map_bare_of_augmented h).symm, List.forall₂_same]
    intro y hy
    obtain ⟨x, -, -, hxy⟩ := forall₂_mem_right hall hy
    refine ⟨rfl, List.forall₂_same.mpr fun o' ho' => ?_⟩
    obtain ⟨o, -, hoo'⟩ := forall₂_mem_right hxy ho'
    exact augment_again hoo'

def tallies : Batches :=
  [("table", [⟨⟨.table, .name "app.entries"⟩, [], [], some 16400⟩]),
    ("function_or_procedure",
      [⟨⟨.routine, .name "app.tally()"⟩,
          [("language", .text "sql"), ("source", .text "select tally(1), count(*) from entries")],
          [⟨⟨.table, .name "app.entries"⟩, some .structural⟩], none⟩,
        ⟨⟨.routine, .name "app.tally(integer)"⟩,
          [("language", .text "c"), ("source", .text "tally")], [], none⟩])]

theorem augmentAll_conservative_tallies : ∃ b, (augmentAll tallies).result = .ok b ∧
    (arrivals b).map (fun o => o.dependencies.map (·.target.text)) =
      [[], ["table:app.entries", "table:app.entries", "function_or_procedure:app.tally(integer)"], []] ∧
    List.Forall₂ (fun x y => x.1 = y.1 ∧ List.Forall₂ (Augmented (arrivals tallies)) x.2 y.2) tallies b ∧
      (augmentAll b).result = .ok b := by
  have hformed : ∀ o ∈ arrivals tallies, o.Formed := by decide
  have hrun : (augmentAll tallies).result.toOption.map
      (fun b => (arrivals b).map fun o => o.dependencies.map (·.target.text)) =
        some [[], ["table:app.entries", "table:app.entries", "function_or_procedure:app.tally(integer)"],
          []] := by decide +kernel
  obtain ⟨b, hb, htargets⟩ := Option.map_eq_some_iff.mp hrun
  rw [toOption_eq_some] at hb
  exact ⟨b, hb, htargets, augmentAll_conservative hformed hb⟩

end Routine

end CatalogPlan
