import CatalogPlan.Graph.Build
import CatalogPlan.Proofs.Event
import CatalogPlan.Proofs.Identity

/-!
# What a snapshot collects

The objects of a snapshot are collected when every one of them agrees with the
first arrival of its identity and with the first holder of its number. What is
collected then follows from the arrivals: the first object of each identity, the
first holder of each number, and the references of all arrivals of an object.
-/

namespace CatalogPlan

-- ---------------------------------------------------------------------------
-- Sets of references
-- ---------------------------------------------------------------------------

namespace Dependency

def point (d : Dependency) : Address × Option EdgeClass :=
  (d.target.address, d.edgeClass)

theorem same_iff {a b : Dependency} : a.same b = true ↔ a.point = b.point := by
  simp [same, point, Identity.same_iff]

theorem exists_same {ds : List Dependency} :
    (∃ k ∈ ds, k.same d = true) ↔ d.point ∈ ds.map point := by
  simp [same_iff]

end Dependency

theorem mergeDependencies_append (ds xs ys : List Dependency) :
    mergeDependencies ds (xs ++ ys) = mergeDependencies (mergeDependencies ds xs) ys :=
  List.foldl_append

theorem addDependency_eq (ds : List Dependency) (d : Dependency) : addDependency ds d =
    if d.point ∈ ds.map Dependency.point then ds else ds ++ [d] := by
  unfold addDependency
  simp only [List.any_eq_true, Dependency.exists_same]

theorem addDependency_points (ds : List Dependency) (d : Dependency) :
    (addDependency ds d).map Dependency.point =
      if d.point ∈ ds.map Dependency.point then ds.map Dependency.point
      else ds.map Dependency.point ++ [d.point] := by
  rw [addDependency_eq]
  split
  · rfl
  · rw [List.map_append, List.map_singleton]

theorem mergeDependencies_points_nodup {ds : List Dependency}
    (h : (ds.map Dependency.point).Nodup) (more : List Dependency) :
    ((mergeDependencies ds more).map Dependency.point).Nodup := by
  induction more generalizing ds with
  | nil => exact h
  | cons d more ih =>
    refine ih ?_
    rw [addDependency_points]
    split
    · exact h
    · rename_i hd
      exact List.nodup_append'.mpr ⟨h, List.nodup_singleton _, by simpa using hd⟩

theorem mem_mergeDependencies_points {ds more : List Dependency} :
    p ∈ (mergeDependencies ds more).map Dependency.point ↔
      p ∈ ds.map Dependency.point ∨ p ∈ more.map Dependency.point := by
  induction more generalizing ds with
  | nil => simp [mergeDependencies]
  | cons d more ih =>
    refine ih.trans ?_
    rw [addDependency_points, List.map_cons, List.mem_cons]
    split
    · rename_i hd
      constructor
      · exact fun h => h.imp_right .inr
      · rintro (h | rfl | h)
        exacts [.inl h, .inl hd, .inr h]
    · rw [List.mem_append, List.mem_singleton, or_assoc]

theorem mergeDependencies_subset (ds more : List Dependency) :
    mergeDependencies ds more ⊆ ds ++ more := by
  induction more generalizing ds with
  | nil => simp [mergeDependencies]
  | cons d more ih =>
    refine List.Subset.trans (ih (addDependency ds d)) ?_
    unfold addDependency
    split
    · exact List.append_subset.mpr ⟨by simp, fun x hx => by simp [hx]⟩
    · simp

theorem addDependency_filter {q : Dependency → Bool} (hq : ∀ a b, a.point = b.point → q a = q b)
    (ds : List Dependency) (d : Dependency) : (addDependency ds d).filter q =
      if q d then addDependency (ds.filter q) d else ds.filter q := by
  have hmem : q d = true →
      (d.point ∈ (ds.filter q).map Dependency.point ↔ d.point ∈ ds.map Dependency.point) := by
    intro hd
    simp only [List.mem_map, List.mem_filter]
    constructor
    · rintro ⟨k, ⟨hk, -⟩, hp⟩
      exact ⟨k, hk, hp⟩
    · rintro ⟨k, hk, hp⟩
      exact ⟨k, ⟨hk, hq k d hp ▸ hd⟩, hp⟩
  rw [addDependency_eq, addDependency_eq]
  by_cases hd : q d = true
  · simp only [hd, if_true, hmem hd]
    split
    · rfl
    · simp [hd]
  · rw [if_neg hd]
    split
    · rfl
    · simp [hd]

/-- References are told apart by their points, so leaving some points out
commutes with merging. -/
theorem mergeDependencies_filter {q : Dependency → Bool} (hq : ∀ a b, a.point = b.point → q a = q b)
    (ds more : List Dependency) : (mergeDependencies ds more).filter q =
      mergeDependencies (ds.filter q) (more.filter q) := by
  induction more generalizing ds with
  | nil => rfl
  | cons d more ih =>
    rw [show mergeDependencies ds (d :: more) = mergeDependencies (addDependency ds d) more from rfl, ih,
      addDependency_filter hq, List.filter_cons]
    split <;> rfl

theorem mergeDependencies_merged (ds more : List Dependency) :
    mergeDependencies ds (mergeDependencies [] more) = mergeDependencies ds more := by
  induction more using List.reverseRecOn with
  | nil => rfl
  | append_singleton more d ih =>
    have hsnoc : ∀ ds, mergeDependencies ds (more ++ [d]) = addDependency (mergeDependencies ds more) d :=
      fun ds => mergeDependencies_append ds more [d]
    rw [hsnoc, hsnoc, addDependency_eq (mergeDependencies [] more)]
    split
    · rename_i hd
      have hin : d.point ∈ (mergeDependencies ds more).map Dependency.point := by
        have hmore : d.point ∈ more.map Dependency.point := by
          simpa using mem_mergeDependencies_points.mp hd
        exact mem_mergeDependencies_points.mpr (.inr hmore)
      rw [ih, addDependency_eq, if_pos hin]
    · rw [mergeDependencies_append, ih]
      rfl

theorem mergeDependencies_extends (ds more : List Dependency) :
    ∃ new, mergeDependencies ds more = ds ++ new ∧ new.Sublist more := by
  induction more generalizing ds with
  | nil => exact ⟨[], by simp [mergeDependencies], .refl _⟩
  | cons d more ih =>
    obtain ⟨new, hnew, hs⟩ := ih (addDependency ds d)
    rw [show mergeDependencies ds (d :: more) = mergeDependencies (addDependency ds d) more from rfl,
      hnew, addDependency_eq]
    split
    · exact ⟨new, rfl, hs.cons d⟩
    · exact ⟨d :: new, by simp, hs.cons_cons d⟩

theorem mergeDependencies_of_subset {ds more : List Dependency}
    (h : ∀ d ∈ more, d.point ∈ ds.map Dependency.point) : mergeDependencies ds more = ds := by
  induction more with
  | nil => rfl
  | cons d more ih =>
    rw [show mergeDependencies ds (d :: more) = mergeDependencies (addDependency ds d) more from rfl,
      addDependency_eq, if_pos (h d (by simp))]
    exact ih fun k hk => h k (List.mem_cons_of_mem _ hk)

theorem mergeDependencies_of_nodup {ds : List Dependency} (h : (ds.map Dependency.point).Nodup) :
    mergeDependencies [] ds = ds := by
  induction ds using List.reverseRecOn with
  | nil => rfl
  | append_singleton ds d ih =>
    simp only [List.map_append, List.map_singleton, List.nodup_append', List.disjoint_singleton] at h
    rw [mergeDependencies_append, ih h.1]
    exact (addDependency_eq ds d).trans (if_neg h.2.2)

theorem foreign_congr (i : Identity) (a b : Dependency) (h : a.point = b.point) :
    (!a.target.same i) = !b.target.same i := by
  rw [Identity.same_comm, Identity.same_congr (congrArg Prod.fst h), Identity.same_comm]

/-- References that join those of an object join the ones it was given. -/
theorem make_append (i : Identity) (payload : Fields) (ds more : List Dependency) (oid : Option Int) :
    Object.make i payload ((Object.make i payload ds oid).dependencies ++ more) oid =
      Object.make i payload (ds ++ more) oid := by
  have hfilter := mergeDependencies_filter (foreign_congr i)
  simp only [Object.make, mergeDependencies_append, hfilter, List.filter_nil, List.filter_filter,
    Bool.and_self, mergeDependencies_merged]

-- ---------------------------------------------------------------------------
-- Arrivals
-- ---------------------------------------------------------------------------

def arrivals (batches : Batches) : List Object :=
  batches.flatMap (·.2)

def captured? (os : List Object) (i : Identity) : Option Object :=
  os.find? (·.identity.same i)

def holder? (os : List Object) (catalog : Catalog) (n : Int) : Option Object :=
  os.find? fun o => o.kind.catalog == catalog && o.oid == some n

def firsts (os : List Object) : List Object :=
  os.foldl (fun seen o => if seen.any (·.identity.same o.identity) then seen else seen ++ [o]) []

def referencesOf (os : List Object) (i : Identity) : List Dependency :=
  mergeDependencies [] ((os.filter (·.identity.same i)).flatMap (·.dependencies))

def Agrees (a b : Object) : Prop :=
  a.kind = b.kind ∧ (Value.object a.payload).same (.object b.payload) = true

/-- Every object has a name, agrees with the first of its identity before it,
and has no number of another object. -/
structure Consistent (os : List Object) : Prop where
  named : ∀ o ∈ os, o.identity.isNumeric = false
  agree : ∀ {before o after}, os = before ++ o :: after →
    ∀ known, captured? before o.identity = some known → Agrees known o
  number : ∀ {before o after}, os = before ++ o :: after → ∀ n, o.oid = some n →
    ∀ known, holder? before o.kind.catalog n = some known → known.identity.same o.identity = true

theorem captured?_mem (h : captured? os i = some o) : o ∈ os ∧ o.identity.address = i.address :=
  ⟨List.mem_of_find?_eq_some h, Identity.same_iff.mp (by simpa using List.find?_some h)⟩

theorem captured?_congr (os : List Object) (h : i.address = j.address) :
    captured? os i = captured? os j := by
  unfold captured?
  simp only [Identity.same_congr h]

theorem captured?_isSome_iff : (captured? os i).isSome ↔
    i.address ∈ os.map (·.identity.address) := by
  simp only [captured?, List.find?_isSome, Identity.same_iff, List.mem_map]

theorem captured?_eq_none_iff : captured? os i = none ↔
    i.address ∉ os.map (·.identity.address) := by
  rw [← captured?_isSome_iff, Option.not_isSome_iff_eq_none]

theorem captured?_append (os more : List Object) (i : Identity) :
    captured? (os ++ more) i = (captured? os i).or (captured? more i) :=
  List.find?_append

theorem holder?_mem (h : holder? os catalog n = some o) :
    o ∈ os ∧ o.kind.catalog = catalog ∧ o.oid = some n := by
  have hp := List.find?_some h
  simp only [Bool.and_eq_true, beq_iff_eq] at hp
  exact ⟨List.mem_of_find?_eq_some h, hp⟩

theorem holder?_append (os more : List Object) (catalog : Catalog) (n : Int) :
    holder? (os ++ more) catalog n = (holder? os catalog n).or (holder? more catalog n) :=
  List.find?_append

-- ---------------------------------------------------------------------------
-- First arrivals
-- ---------------------------------------------------------------------------

theorem firsts_snoc (os : List Object) (o : Object) : firsts (os ++ [o]) =
    if (firsts os).any (·.identity.same o.identity) then firsts os else firsts os ++ [o] := by
  simp [firsts, List.foldl_append]

theorem captured?_firsts (os : List Object) (i : Identity) :
    captured? (firsts os) i = captured? os i := by
  induction os using List.reverseRecOn with
  | nil => rfl
  | append_singleton os o ih =>
    rw [firsts_snoc, captured?_append, ← ih]
    split
    · rename_i hany
      by_cases hi : o.identity.same i = true
      · have hsome : (captured? (firsts os) i).isSome := by
          rw [captured?_congr _ (Identity.same_iff.mp hi).symm]
          simpa [captured?] using hany
        obtain ⟨k, hk⟩ := Option.isSome_iff_exists.mp hsome
        rw [hk, Option.some_or]
      · simp [captured?, hi]
    · rw [captured?_append]

theorem firsts_nodup (os : List Object) : ((firsts os).map (·.identity.address)).Nodup := by
  induction os using List.reverseRecOn with
  | nil => simp [firsts]
  | append_singleton os o ih =>
    rw [firsts_snoc]
    split
    · exact ih
    · rename_i hany
      have hnone : o.identity.address ∉ (firsts os).map (·.identity.address) := by
        rw [← captured?_eq_none_iff]
        simpa [captured?] using hany
      rw [List.map_append]
      exact List.nodup_append'.mpr ⟨ih, List.nodup_singleton _, by simpa using hnone⟩

theorem mem_firsts : o ∈ firsts os ↔ captured? os o.identity = some o := by
  rw [← captured?_firsts]
  constructor
  · intro ho
    cases hf : captured? (firsts os) o.identity with
    | none =>
      exact absurd (List.mem_map_of_mem ho) (captured?_eq_none_iff.mp hf)
    | some k =>
      obtain ⟨hk, ha⟩ := captured?_mem hf
      rw [List.inj_on_of_nodup_map (firsts_nodup os) hk ho ha]
  · exact fun h => (captured?_mem h).1

theorem firsts_subset (os : List Object) : firsts os ⊆ os :=
  fun _ ho => (captured?_mem (mem_firsts.mp ho)).1

-- ---------------------------------------------------------------------------
-- References of all arrivals
-- ---------------------------------------------------------------------------

theorem referencesOf_snoc (os : List Object) (o : Object) (i : Identity) :
    referencesOf (os ++ [o]) i = if o.identity.same i then
      mergeDependencies (referencesOf os i) o.dependencies else referencesOf os i := by
  unfold referencesOf
  rw [List.filter_append, List.flatMap_append, mergeDependencies_append]
  split <;> rename_i h <;> simp [h, mergeDependencies]

theorem referencesOf_of_not_captured (h : captured? os i = none) : referencesOf os i = [] := by
  have hnil : os.filter (·.identity.same i) = [] := by
    rw [List.filter_eq_nil_iff]
    simpa [captured?] using h
  rw [referencesOf, hnil]
  rfl

theorem referencesOf_nodup (os : List Object) (i : Identity) :
    ((referencesOf os i).map Dependency.point).Nodup :=
  mergeDependencies_points_nodup (by simp) _

theorem mem_referencesOf (h : d ∈ referencesOf os i) :
    ∃ o ∈ os, o.identity.address = i.address ∧ d ∈ o.dependencies := by
  have hd := mergeDependencies_subset _ _ h
  simp only [List.nil_append, List.mem_flatMap, List.mem_filter, Identity.same_iff] at hd
  obtain ⟨o, ⟨ho, ha⟩, hd⟩ := hd
  exact ⟨o, ho, ha, hd⟩

theorem mem_referencesOf_points : p ∈ (referencesOf os i).map Dependency.point ↔
    ∃ o ∈ os, o.identity.address = i.address ∧ ∃ d ∈ o.dependencies, d.point = p := by
  rw [referencesOf, mem_mergeDependencies_points]
  simp only [List.map_nil, List.not_mem_nil, false_or, List.mem_map, List.mem_flatMap,
    List.mem_filter, Identity.same_iff]
  constructor
  · rintro ⟨d, ⟨o, ⟨ho, ha⟩, hd⟩, hp⟩
    exact ⟨o, ho, ha, d, hd, hp⟩
  · rintro ⟨o, ho, ha, d, hd, hp⟩
    exact ⟨d, ⟨o, ⟨ho, ha⟩, hd⟩, hp⟩

namespace Collection

-- ---------------------------------------------------------------------------
-- Adding an object
-- ---------------------------------------------------------------------------

theorem addNode_ok {objects objects' : List Object} : addNode objects o = .ok objects' ↔
    (∀ known, captured? objects o.identity = some known → Agrees known o) ∧
      objects' = if objects.any (·.identity.same o.identity) then objects else objects ++ [o] := by
  unfold addNode captured? Agrees
  cases h : objects.find? (·.identity.same o.identity) with
  | none =>
    have hany : objects.any (·.identity.same o.identity) = false := by simpa using h
    simp only [hany, Except.ok.injEq, reduceCtorEq, false_implies, implies_true, true_and]
    exact eq_comm
  | some known =>
    have hany : objects.any (·.identity.same o.identity) = true := by
      rw [List.any_eq_true]
      exact ⟨known, List.mem_of_find?_eq_some h, by simpa using List.find?_some h⟩
    simp only [hany, if_true, Option.some.injEq, forall_eq']
    split
    · rename_i hk
      simp only [hk, Except.ok.injEq, and_self, true_and]
      exact eq_comm
    · rename_i hk
      simp only [hk, reduceCtorEq, false_and]

theorem addOid_ok {oids oids' : List ((Catalog × Int) × Identity)} : addOid oids i n = .ok oids' ↔
    (∀ known, oids.lookup (i.kind.catalog, n) = some known → known.same i = true) ∧
      oids' = if (oids.lookup (i.kind.catalog, n)).isSome then oids
        else oids ++ [((i.kind.catalog, n), i)] := by
  unfold addOid
  cases h : oids.lookup (i.kind.catalog, n) with
  | none =>
    simp only [Except.ok.injEq, reduceCtorEq, false_implies, implies_true, true_and]
    exact eq_comm
  | some known =>
    simp only [Option.some.injEq, forall_eq', Option.isSome_some, if_true]
    split
    · rename_i hk
      simp only [hk, Except.ok.injEq, true_and]
      exact eq_comm
    · rename_i hk
      simp only [hk, reduceCtorEq, false_and]

theorem addReferences_map {xs : List Object} (hn : (xs.map (·.identity.address)).Nodup)
    (f : Identity → List Dependency) (i : Identity) (more : List Dependency) :
    addReferences (xs.map fun o => (o.identity, f o.identity)) i more =
      (xs.map fun o => (o.identity,
        if i.same o.identity then mergeDependencies (f o.identity) more else f o.identity)) ++
      if xs.any (·.identity.same i) then [] else [(i, mergeDependencies [] more)] := by
  induction xs with
  | nil => simp [addReferences]
  | cons o rest ih =>
    rw [List.map_cons, List.nodup_cons] at hn
    rw [List.map_cons, addReferences]
    by_cases ho : o.identity.same i = true
    · have hrest : (rest.map fun k => (k.identity, if i.same k.identity then
          mergeDependencies (f k.identity) more else f k.identity)) =
          rest.map fun k => (k.identity, f k.identity) := by
        refine List.map_congr_left fun k hk => ?_
        have hne : i.same k.identity = false := by
          rw [Identity.same_eq_false, ← Identity.same_iff.mp ho]
          exact fun h => hn.1 (h ▸ List.mem_map_of_mem hk)
        simp [hne]
      rw [if_pos ho, List.map_cons, hrest]
      simp [ho, Identity.same_comm i o.identity]
    · rw [if_neg ho, ih hn.2]
      simp [ho, Identity.same_comm i o.identity]

theorem add_ok {c c' : Collection} : c.add o = .ok c' ↔ o.identity.isNumeric = false ∧
    ∃ objects, addNode c.objects o = .ok objects ∧
      ∃ oids, o.oid.elim (.ok c.oids) (addOid c.oids o.identity) = .ok oids ∧
        ⟨objects, oids, addReferences c.references o.identity o.dependencies⟩ = c' := by
  unfold add
  cases hnum : o.identity.isNumeric with
  | true => simp [bind, Except.bind]
  | false =>
    cases o.oid <;>
      simp only [Bool.false_eq_true, if_false, bind_ok, pure_ok, true_and, Option.elim,
        Except.ok.injEq]

end Collection

-- ---------------------------------------------------------------------------
-- Collecting all objects
-- ---------------------------------------------------------------------------

structure Collected (os : List Object) (c : Collection) : Prop where
  objects : c.objects = firsts os
  number : ∀ catalog n, c.oids.lookup (catalog, n) = (holder? os catalog n).map (·.identity)
  references : c.references = (firsts os).map fun o => (o.identity, referencesOf os o.identity)

theorem consistent_snoc : Consistent (os ++ [o]) ↔ Consistent os ∧ o.identity.isNumeric = false ∧
    (∀ known, captured? os o.identity = some known → Agrees known o) ∧
    ∀ n, o.oid = some n → ∀ known, holder? os o.kind.catalog n = some known →
      known.identity.same o.identity = true := by
  constructor
  · intro h
    have hlong : ∀ {before k after}, os = before ++ k :: after →
        os ++ [o] = before ++ k :: (after ++ [o]) := fun heq => by simp [heq]
    exact ⟨⟨fun k hk => h.named k (by simp [hk]), fun heq => h.agree (hlong heq),
      fun heq => h.number (hlong heq)⟩, h.named o (by simp), h.agree rfl, h.number rfl⟩
  · rintro ⟨h, hnamed, hagree, hnumber⟩
    have hsplit : ∀ {before k after}, os ++ [o] = before ++ k :: after →
        (os = before ∧ o = k) ∨ ∃ after', os = before ++ k :: after' := by
      intro before k after heq
      rcases List.eq_nil_or_concat after with rfl | ⟨after', k', rfl⟩
      · obtain ⟨rfl, hk⟩ := List.append_inj' heq rfl
        exact .inl ⟨rfl, (List.cons.inj hk).1⟩
      · rw [List.concat_eq_append, ← List.cons_append, ← List.append_assoc] at heq
        exact .inr ⟨after', (List.append_inj' heq rfl).1⟩
    refine ⟨?_, ?_, ?_⟩
    · intro k hk
      rcases List.mem_append.mp hk with hk | hk
      · exact h.named k hk
      · rwa [List.mem_singleton.mp hk]
    · intro before k after heq
      rcases hsplit heq with ⟨rfl, rfl⟩ | ⟨after', heq'⟩
      · exact hagree
      · exact h.agree heq'
    · intro before k after heq
      rcases hsplit heq with ⟨rfl, rfl⟩ | ⟨after', heq'⟩
      · exact hnumber
      · exact h.number heq'

namespace Collected

theorem find? (h : Collected os c) (i : Identity) : captured? c.objects i = captured? os i := by
  rw [h.objects, captured?_firsts]

theorem number_snoc (h : Collected os c)
    (ho : o.oid.elim (.ok c.oids) (Collection.addOid c.oids o.identity) = .ok oids)
    (catalog : Catalog) (n : Int) :
    oids.lookup (catalog, n) = (holder? (os ++ [o]) catalog n).map (·.identity) := by
  have hold := h.number catalog n
  rw [holder?_append]
  cases hoid : o.oid with
  | none =>
    have hnone : holder? [o] catalog n = none := by simp [holder?, hoid]
    simp only [hoid, Option.elim, Except.ok.injEq] at ho
    rw [hnone, Option.or_none, ← ho, hold]
  | some m =>
    simp only [hoid, Option.elim, Collection.addOid_ok] at ho
    have hone : holder? [o] catalog n =
        if (catalog, n) = (o.identity.kind.catalog, m) then some o else none := by
      simp only [holder?, List.find?_singleton, hoid, Object.kind]
      refine if_congr ?_ rfl rfl
      simp only [Bool.and_eq_true, beq_iff_eq, Option.some.injEq, Prod.mk.injEq]
      exact and_congr eq_comm eq_comm
    rw [ho.2, hone]
    by_cases hp : (catalog, n) = (o.identity.kind.catalog, m)
    · rw [if_pos hp, ← hp]
      cases hl : c.oids.lookup (catalog, n) with
      | none =>
        have hnone : holder? os catalog n = none := by simpa [hold] using hl
        simp [hnone, List.lookup_append, hl]
      | some i =>
        obtain ⟨k, hk, rfl⟩ := Option.map_eq_some_iff.mp (hold ▸ hl)
        simp [hk, hl]
    · rw [if_neg hp, Option.or_none, ← hold]
      have hlookup : List.lookup (catalog, n) [((o.identity.kind.catalog, m), o.identity)] = none := by
        rw [List.lookup_cons, beq_eq_false_iff_ne.mpr hp]
        rfl
      split
      · rfl
      · rw [List.lookup_append, hlookup, Option.or_none]

theorem snoc (h : Collected os c) (ha : c.add o = .ok c') : Collected (os ++ [o]) c' := by
  obtain ⟨hnamed, objects, hobjects, oids, hoids, rfl⟩ := Collection.add_ok.mp ha
  obtain ⟨-, rfl⟩ := Collection.addNode_ok.mp hobjects
  refine ⟨?_, h.number_snoc hoids, ?_⟩
  · rw [h.objects, firsts_snoc]
  · have hrefs : ∀ k : Object, referencesOf (os ++ [o]) k.identity =
        if o.identity.same k.identity then
          mergeDependencies (referencesOf os k.identity) o.dependencies
        else referencesOf os k.identity := fun k => referencesOf_snoc os o k.identity
    rw [h.references, Collection.addReferences_map (firsts_nodup os), firsts_snoc]
    simp only [← hrefs]
    split
    · rw [List.append_nil]
    · rename_i hany
      have hnone : captured? os o.identity = none := by
        rw [← captured?_firsts]
        simpa [captured?] using hany
      rw [List.map_append, List.map_singleton, hrefs, if_pos (Identity.same_refl _),
        referencesOf_of_not_captured hnone]

theorem add_isOk (h : Collected os c) : (∃ c', c.add o = .ok c') ↔ o.identity.isNumeric = false ∧
    (∀ known, captured? os o.identity = some known → Agrees known o) ∧
    ∀ n, o.oid = some n → ∀ known, holder? os o.kind.catalog n = some known →
      known.identity.same o.identity = true := by
  simp only [Collection.add_ok, Collection.addNode_ok, h.find?]
  have hoid : (∃ oids, o.oid.elim (.ok c.oids) (Collection.addOid c.oids o.identity) = .ok oids) ↔
      ∀ n, o.oid = some n → ∀ known, holder? os o.kind.catalog n = some known →
        known.identity.same o.identity = true := by
    cases o.oid with
    | none => simp
    | some n =>
      simp only [Option.elim, Collection.addOid_ok, h.number, Option.map_eq_some_iff]
      constructor
      · rintro ⟨_, hall, -⟩ n' hn' known hknown
        obtain rfl := Option.some.inj hn'
        exact hall _ ⟨known, hknown, rfl⟩
      · intro hall
        refine ⟨_, ?_, rfl⟩
        rintro _ ⟨known, hknown, rfl⟩
        exact hall n rfl known hknown
  rw [← hoid]
  constructor
  · rintro ⟨_, hnamed, _, ⟨hagree, -⟩, oids, hoids, -⟩
    exact ⟨hnamed, hagree, oids, hoids⟩
  · rintro ⟨hnamed, hagree, oids, hoids⟩
    exact ⟨_, hnamed, _, ⟨hagree, rfl⟩, oids, hoids, rfl⟩

end Collected

namespace Collection

theorem ofObjects_snoc (os : List Object) (o : Object) :
    ofObjects (os ++ [o]) = ofObjects os >>= fun c => c.add o := by
  simp [ofObjects, List.foldlM_append]

theorem ofObjects_ok (h : ofObjects os = .ok c) : Collected os c := by
  induction os using List.reverseRecOn generalizing c with
  | nil =>
    obtain rfl : empty = c := by simpa [ofObjects, pure, Except.pure] using h
    exact ⟨rfl, fun _ _ => rfl, rfl⟩
  | append_singleton os o ih =>
    rw [ofObjects_snoc, bind_ok] at h
    obtain ⟨c₀, h₀, hadd⟩ := h
    exact (ih h₀).snoc hadd

/-- Objects are collected exactly when they are consistent. -/
theorem ofObjects_isOk (os : List Object) : (∃ c, ofObjects os = .ok c) ↔ Consistent os := by
  induction os using List.reverseRecOn with
  | nil =>
    refine ⟨fun _ => ⟨by simp, ?_, ?_⟩, fun _ => ⟨empty, rfl⟩⟩ <;> intro before o after h <;> simp at h
  | append_singleton os o ih =>
    rw [consistent_snoc, ← ih]
    simp only [ofObjects_snoc, bind_ok]
    constructor
    · rintro ⟨c, c₀, h₀, hadd⟩
      exact ⟨⟨c₀, h₀⟩, (ofObjects_ok h₀).add_isOk.mp ⟨c, hadd⟩⟩
    · rintro ⟨⟨c₀, h₀⟩, hagree⟩
      obtain ⟨c, hadd⟩ := (ofObjects_ok h₀).add_isOk.mpr hagree
      exact ⟨c, c₀, h₀, hadd⟩

end Collection

end CatalogPlan
