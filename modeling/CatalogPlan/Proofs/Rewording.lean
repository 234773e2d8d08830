import CatalogPlan.Proofs.Graph.Restated
import CatalogPlan.Proofs.Planning

/-!
# Plans with references in other words

Bodies are searched whatever references an object has, and what they add joins
those references. So a run takes the same course when references to captured
objects are given in other words, and makes the same plan.
-/

namespace CatalogPlan

open Routine (augment bodyDependencies Known)

variable {batches batches' b b' : Batches} {os os' : List Object} {o o' a : Object}
  {failedKinds : List Value}

-- ---------------------------------------------------------------------------
-- Body references
-- ---------------------------------------------------------------------------

theorem Restated.augment [Sql.Parser] {known : Known} (h : Restated os o o')
    (ha : (augment known o).result = .ok a) :
    ∃ a', (Routine.augment known o').result = .ok a' ∧ Restated os a a' := by
  cases h with
  | given i payload oid h =>
    rcases Routine.augment_ok.mp ha with ⟨hbody, rfl⟩ | ⟨sql, schemas, found, hbody, hs, hf, hw, rfl⟩
    · exact ⟨_, Routine.augment_ok.mpr (.inl ⟨hbody, rfl⟩), .given i payload oid h⟩
    · refine ⟨_, Routine.augment_ok.mpr (.inr ⟨sql, schemas, found, hbody, hs, hf, hw, rfl⟩), ?_⟩
      show Restated os (.make i payload (_ ++ _) oid) (.make i payload (_ ++ _) oid)
      rw [make_append, make_append]
      exact .given i payload oid (List.rel_append h (List.forall₂_same.mpr fun d _ => .refl d))

theorem augmentAll_restated [Sql.Parser]
    (hall : List.Forall₂ (Restated (arrivals batches)) (arrivals batches) (arrivals batches'))
    (hb : (Routine.augmentAll batches).result = .ok b) :
    ∃ b', (Routine.augmentAll batches').result = .ok b' ∧
      List.Forall₂ (Restated (arrivals b)) (arrivals b) (arrivals b') := by
  have hknown := Routine.ofBatches_bare (map_bare_of_restated hall)
  have harr := Routine.augmentAll_arrivals hb
  have hbare := Routine.map_bare_of_augmented hb
  -- An augmented arrival in other words is what the arrival in other words comes to.
  have hstep : List.Forall₂ (fun a o' => ∃ a', (augment (Known.ofBatches batches) o').result = .ok a' ∧
      Restated (arrivals batches) a a') (arrivals b) (arrivals batches') :=
    forall₂_trans_mem (fun _ _ _ _ _ _ ha hr => hr.augment ha) harr.flip hall
  obtain ⟨b', hb'⟩ := (Routine.augmentAll_isOk batches').mpr fun o' ho' => by
    obtain ⟨a, -, a', ha', -⟩ := forall₂_mem_right hstep ho'
    exact ⟨a', hknown ▸ ha'⟩
  refine ⟨b', hb', forall₂_trans_mem ?_ hstep (Routine.augmentAll_arrivals hb')⟩
  rintro a - o' - a'' - ⟨a', ha', hr⟩ ha''
  rw [← hknown, ha'] at ha''
  obtain rfl := Except.ok.inj ha''
  exact hr.transfer hbare

-- ---------------------------------------------------------------------------
-- Plans
-- ---------------------------------------------------------------------------

theorem plan_restated [Sql.Parser]
    (hall : List.Forall₂ (Restated (arrivals batches)) (arrivals batches) (arrivals batches'))
    (hp : (plan batches failedKinds).result = .ok p) :
    ∃ q, (plan batches' failedKinds).result = .ok q ∧ p.graph.Reworded q.graph ∧ p.plan = q.plan := by
  obtain ⟨b, hb, g, hg, hf, rfl⟩ := plan_ok.mp hp
  obtain ⟨b', hb', hall'⟩ := augmentAll_restated hall hb
  obtain ⟨g', hg', hsame⟩ := build_restated hall' hg
  have hf' := (acyclic_congr (hsame.edges.filter _)).mp hf
  have hnodes : g.nodes.Perm g'.nodes := hsame.nodes ▸ .refl _
  exact ⟨_, plan_ok.mpr ⟨b', hb', g', hg', hf', rfl⟩, hsame,
    Graph.plan_congr (build_digraph hg) hnodes hsame.edges⟩

/-- References are transparent: with those to captured objects in other words there
is a graph where there was one, with the same objects, edges and diagnostics, and
the same plan or none. -/
theorem references_transparent [Sql.Parser]
    (hall : List.Forall₂ (Restated (arrivals batches)) (arrivals batches) (arrivals batches'))
    (failedKinds : List Value) :
    (∀ g, (Graph.build batches failedKinds).result = .ok g →
      ∃ g', (Graph.build batches' failedKinds).result = .ok g' ∧ g.Reworded g') ∧
    ((∃ p, (plan batches failedKinds).result = .ok p) ↔
      ∃ q, (plan batches' failedKinds).result = .ok q) ∧
    ∀ p q, (plan batches failedKinds).result = .ok p → (plan batches' failedKinds).result = .ok q →
      p.graph.Reworded q.graph ∧ p.plan = q.plan := by
  refine ⟨fun g hg => build_restated hall hg, ⟨?_, ?_⟩, fun p q hp hq => ?_⟩
  · rintro ⟨p, hp⟩
    obtain ⟨q, hq, -⟩ := plan_restated hall hp
    exact ⟨q, hq⟩
  · rintro ⟨q, hq⟩
    obtain ⟨p, hp, -⟩ := plan_restated (restated_symm hall) hq
    exact ⟨p, hp⟩
  · obtain ⟨q', hq', hsame⟩ := plan_restated hall hp
    obtain rfl := Except.ok.inj (hq.symm.trans hq')
    exact hsame

def shopReworded : Batches :=
  [("table",
      [⟨⟨.table, .name "shop.orders"⟩, [],
        [⟨⟨.namespace, .name "shop"⟩, none⟩, ⟨⟨.view, .name "shop.customers"⟩, none⟩,
          ⟨⟨.index, .name "shop.orders_id_seq"⟩, none⟩, ⟨⟨.type, .oid 23⟩, none⟩,
          ⟨⟨.table, .oid 16400⟩, none⟩], some 16400⟩,
        ⟨⟨.table, .name "shop.customers"⟩, [], [⟨⟨.view, .name "shop.orders"⟩, none⟩], none⟩]),
    ("sequence",
      [⟨⟨.sequence, .name "shop.orders_id_seq"⟩, [], [⟨⟨.index, .oid 16400⟩, none⟩], none⟩])]

theorem references_transparent_shop :
    List.Forall₂ (Restated (arrivals shop)) (arrivals shop) (arrivals shopReworded) ∧
      ∃ p q, (plan shop []).result = .ok p ∧ (plan shopReworded []).result = .ok q ∧
        p.graph.Reworded q.graph ∧ p.plan = q.plan := by
  have hname : ∀ kind : Kind, kind.catalog = .relation →
      Denotes (arrivals shop) ⟨.table, .name "shop.orders"⟩ ⟨kind, .name "shop.orders"⟩ :=
    fun kind hk => .name kind hk
  have hnumber : ∀ kind : Kind, kind.catalog = .relation →
      Denotes (arrivals shop) ⟨.table, .name "shop.orders"⟩ ⟨kind, .oid 16400⟩ :=
    fun kind hk => .number (i := ⟨.table, .name "shop.orders"⟩) kind hk (.head _) rfl rfl
  have horders : ∀ s t, Denotes (arrivals shop) ⟨.table, .name "shop.orders"⟩ s →
      Denotes (arrivals shop) ⟨.table, .name "shop.orders"⟩ t →
        Restates (arrivals shop) ⟨s, none⟩ ⟨t, none⟩ :=
    fun s t hs ht => .captured (.head _) hs ht none
  have hcustomers : Restates (arrivals shop) ⟨⟨.table, .name "shop.customers"⟩, none⟩
      ⟨⟨.view, .name "shop.customers"⟩, none⟩ :=
    .captured (.tail _ (.head _)) (.name .table rfl) (.name .view rfl) none
  have hsequence : Restates (arrivals shop) ⟨⟨.sequence, .name "shop.orders_id_seq"⟩, none⟩
      ⟨⟨.index, .name "shop.orders_id_seq"⟩, none⟩ :=
    .captured (.tail _ (.tail _ (.head _))) (.name .sequence rfl) (.name .index rfl) none
  have hall : List.Forall₂ (Restated (arrivals shop)) (arrivals shop) (arrivals shopReworded) := by
    refine .cons ?_ (.cons ?_ (.cons ?_ .nil))
    · -- The reference of the table to itself by name is dropped, that by number stays.
      have hself := horders _ _ (hname .table rfl) (hnumber .table rfl)
      exact Restated.given ⟨.table, .name "shop.orders"⟩ [] (some 16400)
        (.cons (.refl ⟨⟨.namespace, .name "shop"⟩, none⟩) (.cons hcustomers (.cons hsequence
          (.cons (.refl ⟨⟨.type, .oid 23⟩, none⟩) (.cons hself .nil)))))
    · exact Restated.given ⟨.table, .name "shop.customers"⟩ [] none
        (.cons (horders _ _ (hnumber .table rfl) (hname .view rfl)) .nil)
    · exact Restated.given ⟨.sequence, .name "shop.orders_id_seq"⟩ [] none
        (.cons (horders _ _ (hnumber .table rfl) (hnumber .index rfl)) .nil)
  obtain ⟨p, hp⟩ : ∃ p, (plan shop []).result = .ok p := isOk_iff.mp (by decide +kernel)
  obtain ⟨-, hplan, hsame⟩ := references_transparent hall []
  obtain ⟨q, hq⟩ := hplan.mp ⟨p, hp⟩
  exact ⟨hall, p, q, hp, hq, hsame p q hp hq⟩

end CatalogPlan
