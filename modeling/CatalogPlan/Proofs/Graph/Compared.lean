import CatalogPlan.Proofs.Arrival.Snapshot
import CatalogPlan.Proofs.Graph.Bare
import CatalogPlan.Proofs.Routine

/-!
# Arrivals that differ in their references

Two lists of arrivals that differ in their references alone are compared arrival
by arrival: whether every reference comes to something follows from the
references of each, and so do the references with a property, as long as it is
one of points.
-/

namespace CatalogPlan

variable {os os' : List Object} {p : Identity × Dependency → Bool}

-- ---------------------------------------------------------------------------
-- References of one arrival
-- ---------------------------------------------------------------------------

theorem registered?_captured (hnamed : k.identity.isNumeric = false) (hk : k ∈ os) :
    ∃ o, registered? os k.identity = some o ∧ o.identity.address = k.identity.address := by
  obtain ⟨o, ho⟩ := captured?_of_mem hk rfl
  exact ⟨o, by rwa [registered?_named hnamed], (captured?_mem ho).2⟩

theorem Becomes.target_ne (h : Becomes os o d e) (hnamed : o.identity.isNumeric = false) (ho : o ∈ os) :
    d.target.address ≠ o.identity.address := by
  intro ha
  obtain ⟨first, t, c, -, hres, hs, -, -⟩ := h
  obtain ⟨k, hk, hka⟩ := registered?_captured hnamed ho
  rw [resolved?_congr os ha, resolved?_eq_some_iff.mpr (.inl ⟨k, hk, rfl⟩)] at hres
  obtain rfl := Option.some.inj hres
  exact Identity.same_eq_false.mp hs hka

theorem outcome_isOk_congr (os : List Object) (failed : List Kind) (hi : i.address = j.address)
    (h : a.point = b.point) : (outcome os failed (i, a)).isOk = (outcome os failed (j, b)).isOk := by
  obtain ⟨htarget, hclass⟩ := Prod.mk.inj h
  have hres := resolved?_congr os htarget
  cases ha : resolved? os a.target with
  | none =>
    have hcat : a.target.kind.catalog = b.target.kind.catalog := congrArg Address.catalog htarget
    unfold outcome
    rw [← hres, ha, hcat]
    cases failed.filter (·.catalog = b.target.kind.catalog) <;> rfl
  | some t =>
    have hclassOf : (edgeClassOf os i a t).isOk = (edgeClassOf os j b t).isOk := by
      rw [edgeClassOf, edgeClassOf, hclass, captured?_congr os hi]
      cases b.edgeClass <;> cases captured? os j <;> rfl
    rw [outcome_of_resolved ha, outcome_of_resolved (hres ▸ ha), Identity.same_congr hi]
    split
    · rfl
    · rw [isOk_map, isOk_map, hclassOf]

theorem outcomes_isOk_iff (os : List Object) (failed : List Kind) :
    (∃ found, (orderedReferences os).mapM (outcome os failed) = .ok found) ↔
      ∀ o ∈ os, ∀ d ∈ o.dependencies, (outcome os failed (o.identity, d)).isOk = true := by
  rw [mapM_isOk]
  constructor
  · intro h o ho d hd
    obtain ⟨first, k, hfirst, hr, hp⟩ := reference_of_arrival ho hd
    rw [← outcome_isOk_congr os failed (captured?_mem hfirst).2 hp]
    exact isOk_iff.mpr (h _ hr)
  · intro h r hr
    obtain ⟨o, ho, ha, hd, -⟩ := arrival_of_reference hr
    rw [← isOk_iff, ← outcome_isOk_congr os failed ha rfl]
    exact h o ho r.2 hd

-- ---------------------------------------------------------------------------
-- References with a property
-- ---------------------------------------------------------------------------

theorem make_filter {q : Dependency → Bool} (hq : ∀ d : Dependency, d.target.same i = true → q d = false) :
    (Object.make i payload ds oid).dependencies.filter q = (mergeDependencies [] ds).filter q := by
  rw [Object.make, List.filter_filter]
  refine List.filter_congr fun d _ => ?_
  cases hd : d.target.same i with
  | true => simp [hq d hd]
  | false => simp

/-- A property that the point of a reference decides. -/
def OfPoints (p : Identity × Dependency → Bool) : Prop :=
  ∀ i a b, a.point = b.point → p (i, a) = p (i, b)

/-- Two arrivals that differ in their references alone, and not in those with a
property. -/
structure AlikeUnder (p : Identity × Dependency → Bool) (o o' : Object) : Prop where
  bare : o.bare = o'.bare
  filter : ∀ i, o.identity.same i = true →
    mergeDependencies [] (o.dependencies.filter fun d => p (i, d)) =
      mergeDependencies [] (o'.dependencies.filter fun d => p (i, d))

theorem AlikeUnder.identity (h : AlikeUnder p o o') : o.identity = o'.identity := by
  rw [← Object.bare_identity, h.bare, Object.bare_identity]

theorem map_bare_congr (h : List.Forall₂ (fun o o' : Object => o.bare = o'.bare) os os') :
    os.map Object.bare = os'.map Object.bare := by
  induction h with
  | nil => rfl
  | cons h _ ih => rw [List.map_cons, List.map_cons, h, ih]

theorem mergeDependencies_alike (h : List.Forall₂ (AlikeUnder p) os os') (i : Identity)
    (ds : List Dependency) :
    mergeDependencies ds (((os.filter (·.identity.same i)).flatMap (·.dependencies)).filter
        fun d => p (i, d)) =
      mergeDependencies ds (((os'.filter (·.identity.same i)).flatMap (·.dependencies)).filter
        fun d => p (i, d)) := by
  induction h generalizing ds with
  | nil => rfl
  | @cons o o' os os' ho _ ih =>
    rw [List.filter_cons, List.filter_cons, ← ho.identity]
    split
    · rename_i hs
      rw [List.flatMap_cons, List.flatMap_cons, List.filter_append, List.filter_append,
        mergeDependencies_append, mergeDependencies_append, ih,
        ← mergeDependencies_merged ds (o.dependencies.filter _),
        ← mergeDependencies_merged ds (o'.dependencies.filter _), ho.filter i hs]
    · exact ih ds

theorem referencesOf_alike (hp : OfPoints p) (h : List.Forall₂ (AlikeUnder p) os os') (i : Identity) :
    (referencesOf os i).filter (fun d => p (i, d)) = (referencesOf os' i).filter fun d => p (i, d) := by
  have hq : ∀ a b : Dependency, a.point = b.point → p (i, a) = p (i, b) := hp i
  rw [referencesOf, referencesOf, mergeDependencies_filter hq, mergeDependencies_filter hq]
  exact mergeDependencies_alike h i _

theorem orderedReferences_alike (hp : OfPoints p) (h : List.Forall₂ (AlikeUnder p) os os') :
    (orderedReferences os).filter p = (orderedReferences os').filter p := by
  have hbare := map_bare_congr (h.imp fun _ _ => AlikeUnder.bare)
  have hfirsts : (firsts os).map (·.identity) = (firsts os').map (·.identity) := by
    have hmap := congrArg (List.map (·.identity)) (congrArg firsts hbare)
    rwa [firsts_bare, firsts_bare, List.map_map, List.map_map] at hmap
  rw [orderedReferences_filter, orderedReferences_filter, hfirsts]
  refine List.flatMap_congr fun i _ => ?_
  rw [referencesOf_alike hp h]

-- ---------------------------------------------------------------------------
-- References to captured objects
-- ---------------------------------------------------------------------------

/-- A property of points that references to captured objects do not have. -/
structure Overlooks (os : List Object) (p : Identity × Dependency → Bool) : Prop where
  points : OfPoints p
  captured : ∀ r o, registered? os r.2.target = some o → p r = false

theorem overlooks_unresolved (os : List Object) :
    Overlooks os fun r => (resolved? os r.2.target).isNone := by
  refine ⟨fun _ a b h => by rw [resolved?_congr os (congrArg Prod.fst h)], fun r o ho => ?_⟩
  rw [resolved?_eq_some_iff.mpr (.inl ⟨o, ho, rfl⟩)]
  rfl

theorem overlooks_newSchema (os : List Object) : Overlooks os fun r => isNewSchema os r.2.target := by
  refine ⟨fun _ a b h => isNewSchema_congr os (congrArg Prod.fst h), fun r o ho => ?_⟩
  rw [← Bool.not_eq_true, isNewSchema_iff]
  rintro ⟨hnamed, -, hnone⟩
  rw [registered?_named hnamed, hnone] at ho
  cases ho

section
variable (hbare : os.map Object.bare = os'.map Object.bare)
include hbare

theorem newSchemas_congr (h : List.Forall₂ (AlikeUnder fun r => isNewSchema os r.2.target) os os') :
    newSchemas os (orderedReferences os) = newSchemas os' (orderedReferences os') := by
  have hnew : isNewSchema os = isNewSchema os' :=
    eq_of_bare (fun os => funext (isNewSchema_bare os)) hbare
  have hrefs := orderedReferences_alike (overlooks_newSchema os).points h
  unfold newSchemas
  rw [List.filter_map, List.filter_map, ← hnew]
  exact congrArg (fun refs => distinctIdentities (refs.map (·.2.target))) hrefs

theorem diagnostics_congr
    (h : List.Forall₂ (AlikeUnder fun r => (resolved? os r.2.target).isNone) os os') :
    (orderedReferences os).filterMap (dropped? os) = (orderedReferences os').filterMap (dropped? os') := by
  have hres : resolved? os = resolved? os' :=
    eq_of_bare (fun os => funext (resolved?_bare os)) hbare
  rw [filterMap_dropped?, filterMap_dropped?, ← hres,
    orderedReferences_alike (overlooks_unresolved os).points h]

end

-- ---------------------------------------------------------------------------
-- Body references
-- ---------------------------------------------------------------------------

namespace Routine

theorem augment_bare [Sql.Parser] {known : Known} (h : (augment known o).result = .ok a) : o.bare = a.bare := by
  rcases augment_ok.mp h with ⟨-, rfl⟩ | ⟨sql, schemas, found, -, -, -, -, rfl⟩
  · rfl
  · rfl

theorem map_bare_of_augmented [Sql.Parser] (h : (augmentAll batches).result = .ok b) :
    (arrivals batches).map Object.bare = (arrivals b).map Object.bare :=
  map_bare_congr ((augmentAll_arrivals h).imp fun _ _ => augment_bare)

theorem ofBatches_bare (h : (arrivals batches).map Object.bare = (arrivals batches').map Object.bare) :
    Known.ofBatches batches = Known.ofBatches batches' := by
  have hrelations : relationsOf (arrivals batches) = relationsOf (arrivals batches') :=
    eq_of_bare (fun os => by simp [relationsOf, List.filter_map, Function.comp_def]) h
  have hroutines : routinesOf (arrivals batches) = routinesOf (arrivals batches') :=
    eq_of_bare (fun os => by simp [routinesOf, List.filter_map, Function.comp_def]) h
  rw [ofBatches_eq, ofBatches_eq, hrelations, hroutines]

end Routine

end CatalogPlan
