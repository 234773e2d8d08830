import CatalogPlan.Proofs.Graph.Resolution
import CatalogPlan.Routine.Augment

/-!
# What routine bodies add

A body is searched in the same way whatever was captured; the captured objects
only decide which of the names that it holds stand for something. The other
parts of an object stay as they are.
-/

namespace CatalogPlan.Routine

-- ---------------------------------------------------------------------------
-- Tables of names
-- ---------------------------------------------------------------------------

def nonempty? (xs : List α) : Option (List α) :=
  if xs.isEmpty then none else some xs

theorem getD_nonempty? (xs : List α) : (nonempty? xs).getD [] = xs := by
  cases xs <;> rfl

namespace NameTable

def fill (key : Identity → String) (is : List Identity) : NameTable :=
  is.foldl (fun table i => table.insert (key i) i) []

theorem lookup_insert (table : NameTable) (known name : String) (i : Identity) :
    List.lookup name (table.insert known i) =
      if known = name then some ((List.lookup name table).getD [] ++ [i]) else List.lookup name table := by
  induction table with
  | nil =>
    by_cases h : known = name
    · simp [insert, h]
    · simp [insert, h, List.lookup_cons, beq_false_of_ne (Ne.symm h)]
  | cons entry rest ih =>
    obtain ⟨first, found⟩ := entry
    rw [insert]
    by_cases hf : first = known
    · subst hf
      by_cases h : first = name
      · subst h
        simp
      · simp [h, List.lookup_cons, beq_false_of_ne (Ne.symm h)]
    · rw [if_neg hf, List.lookup_cons, List.lookup_cons, ih]
      by_cases hn : name = first
      · subst hn
        simp [Ne.symm hf]
      · simp [beq_false_of_ne hn]

theorem lookup_fill (key : Identity → String) (is : List Identity) (name : String) :
    List.lookup name (fill key is) = nonempty? (is.filter fun i => key i == name) := by
  induction is using List.reverseRecOn with
  | nil => rfl
  | append_singleton is i ih =>
    have hsnoc : fill key (is ++ [i]) = (fill key is).insert (key i) i := by
      simp [fill, List.foldl_append]
    rw [hsnoc, lookup_insert, ih, List.filter_append]
    by_cases h : key i = name
    · rw [if_pos h, getD_nonempty?]
      simp [nonempty?, h]
    · simp [h]

theorem mem_firstOf_congr (key : Identity → String) {is js : List Identity}
    (h : ∀ i, i ∈ is ↔ i ∈ js) (names : List String) :
    i ∈ (fill key is).firstOf names ↔ i ∈ (fill key js).firstOf names := by
  unfold firstOf
  induction names with
  | nil => simp
  | cons name rest ih =>
    have hmem : ∀ k, k ∈ is.filter (fun i => key i == name) ↔ k ∈ js.filter fun i => key i == name := by
      intro k
      rw [List.mem_filter, List.mem_filter, h]
    simp only [List.findSome?_cons, lookup_fill] at ih ⊢
    cases hi : is.filter (fun i => key i == name) with
    | nil =>
      have hj : js.filter (fun i => key i == name) = [] :=
        List.eq_nil_iff_forall_not_mem.mpr fun k hk => by
          have := (hmem k).mpr hk
          simp [hi] at this
      rw [hj]
      exact ih
    | cons a as =>
      cases hj : js.filter (fun i => key i == name) with
      | nil =>
        have := (hmem a).mp (hi ▸ List.mem_cons_self)
        simp [hj] at this
      | cons b bs =>
        have := hmem i
        rwa [hi, hj] at this

theorem mem_of_firstOf {key : Identity → String} {is : List Identity} {names : List String}
    (h : i ∈ (fill key is).firstOf names) : i ∈ is := by
  unfold firstOf at h
  induction names with
  | nil => simp at h
  | cons name rest ih =>
    simp only [List.findSome?_cons, lookup_fill] at h ih
    cases hf : is.filter (fun i => key i == name) with
    | nil => exact ih (by simpa [hf, nonempty?] using h)
    | cons a as =>
      have hm : i ∈ is.filter fun i => key i == name := by simpa [hf, nonempty?] using h
      exact (List.mem_filter.mp hm).1

end NameTable

def relationsOf (os : List Object) : List Identity :=
  (os.filter fun o => isRelation o.kind).map (·.identity)

def routinesOf (os : List Object) : List Identity :=
  (os.filter fun o => o.kind == .routine).map (·.identity)

theorem mem_relationsOf : i ∈ relationsOf os ↔ ∃ o ∈ os, isRelation o.kind = true ∧ o.identity = i := by
  simp [relationsOf, and_assoc]

theorem mem_routinesOf : i ∈ routinesOf os ↔ ∃ o ∈ os, o.kind = .routine ∧ o.identity = i := by
  simp [routinesOf, and_assoc]

theorem ofBatches_eq (batches : Batches) : Known.ofBatches batches =
    ⟨NameTable.fill (·.key.text) (relationsOf (arrivals batches)),
      NameTable.fill baseName (routinesOf (arrivals batches))⟩ := by
  show (arrivals batches).foldl Known.add Known.empty = _
  induction arrivals batches using List.reverseRecOn with
  | nil => rfl
  | append_singleton os o ih =>
    rw [List.foldl_append, ih]
    simp only [List.foldl_cons, List.foldl_nil, Known.add, relationsOf, routinesOf, List.filter_append,
      List.map_append]
    cases hk : o.kind <;>
      simp [isRelation, hk, Known.addRelation, Known.addRoutine, NameTable.fill, List.foldl_append]

-- ---------------------------------------------------------------------------
-- Written names
-- ---------------------------------------------------------------------------

/-- Whether a written name can be looked up, or why not. -/
def checkWritten (schemas : List String) (w : Sql.WrittenName) : Except Fault Unit :=
  match w.name with
  | some _ => .ok ()
  | none => (namelessCall (searchPath schemas w.schema)).map fun _ => ()

def lookedUp (table : NameTable) (schemas : List String) (w : Sql.WrittenName) : List Identity :=
  match w.name with
  | some name =>
    match candidates (searchPath schemas w.schema) name with
    | .ok names => table.firstOf names
    | .error _ => []
  | none => []

theorem mem_lookedUp {table : NameTable} : i ∈ lookedUp table schemas w ↔ ∃ name names,
    w.name = some name ∧ candidates (searchPath schemas w.schema) name = .ok names ∧
      i ∈ table.firstOf names := by
  unfold lookedUp
  cases w.name with
  | none => simp
  | some name =>
    simp only [Option.some.injEq, exists_and_left, exists_eq_left']
    cases candidates (searchPath schemas w.schema) name <;> simp

theorem lookUp_result (table : NameTable) (schemas : List String) (w : Sql.WrittenName) :
    (lookUp table schemas w).result =
      (checkWritten schemas w).map fun _ => lookedUp table schemas w := by
  unfold lookUp checkWritten lookedUp
  cases w.name with
  | some name =>
    simp only
    cases candidates (searchPath schemas w.schema) name with
    | ok names => rfl
    | error fault => exact Traced.emit_bind _ _
  | none =>
    simp only [Traced.result_bind, Traced.lift_result]
    cases namelessCall (searchPath schemas w.schema) with
    | error fault => rfl
    | ok readable => cases readable <;> rfl

def bodyTargets (known : Known) (schemas : List String) (found : Sql.References) : List Identity :=
  distinctIdentities
    (((inLookUpOrder found.relations).map (lookedUp known.relations schemas)).flatten ++
      ((inLookUpOrder found.functions).map (lookedUp known.routines schemas)).flatten)

theorem mem_bodyTargets (h : i ∈ bodyTargets (Known.ofBatches batches) schemas found) :
    ∃ o ∈ arrivals batches, o.identity = i ∧ (isRelation o.kind = true ∨ o.kind = .routine) := by
  rw [ofBatches_eq] at h
  have hm := distinctIdentities_subset _ h
  simp only [List.mem_append, List.mem_flatten, List.mem_map, exists_exists_and_eq_and] at hm
  rcases hm with ⟨w, -, hw⟩ | ⟨w, -, hw⟩
  · obtain ⟨name, names, -, -, hi⟩ := mem_lookedUp.mp hw
    obtain ⟨o, ho, hk, rfl⟩ := mem_relationsOf.mp (NameTable.mem_of_firstOf hi)
    exact ⟨o, ho, rfl, .inl hk⟩
  · obtain ⟨name, names, -, -, hi⟩ := mem_lookedUp.mp hw
    obtain ⟨o, ho, hk, rfl⟩ := mem_routinesOf.mp (NameTable.mem_of_firstOf hi)
    exact ⟨o, ho, rfl, .inr hk⟩

structure Searchable (schemas : List String) (found : Sql.References) : Prop where
  relations : ∀ w ∈ inLookUpOrder found.relations, checkWritten schemas w = .ok ()
  sortable : isUnsortable found.functions = false
  functions : ∀ w ∈ inLookUpOrder found.functions, checkWritten schemas w = .ok ()

theorem mapM_check_ok {schemas : List String} {ws : List Sql.WrittenName}
    {f : Sql.WrittenName → List Identity} : (ws.mapM fun w =>
        (checkWritten schemas w).map fun _ => f w) = .ok found ↔
      (∀ w ∈ ws, checkWritten schemas w = .ok ()) ∧ ws.map f = found := by
  induction ws generalizing found with
  | nil => simp [pure, Except.pure]
  | cons w rest ih =>
    simp only [List.mapM_cons, bind_ok, pure_ok, map_ok, ih, List.forall_mem_cons, List.map_cons]
    constructor
    · rintro ⟨_, ⟨_, hw, rfl⟩, _, ⟨hrest, rfl⟩, rfl⟩
      exact ⟨⟨hw, hrest⟩, rfl⟩
    · rintro ⟨⟨hw, hrest⟩, rfl⟩
      exact ⟨_, ⟨(), hw, rfl⟩, _, ⟨hrest, rfl⟩, rfl⟩

theorem bodyReferences_ok [Sql.Parser] {known : Known} {schemas : List String} {sql : String} :
    (bodyReferences known schemas sql).result = .ok is ↔ ∃ found, Sql.references sql = .ok found ∧
      Searchable schemas found ∧ bodyTargets known schemas found = is := by
  have hrelation : ∀ w, (do
      let objects ← lookUp known.relations schemas w
      if objects.isEmpty then Traced.emit (.unknownRelation w.schema (w.name.getD ""))
      return objects : Traced (List Identity)).result =
        (checkWritten schemas w).map fun _ => lookedUp known.relations schemas w := by
    intro w
    rw [Traced.result_bind, lookUp_result]
    cases checkWritten schemas w with
    | error fault => rfl
    | ok u =>
      show (if _ then _ else _ : Traced (List Identity)).result = _
      split <;> rfl
  have hroutines : ∀ (ws : List Sql.WrittenName) (relations : List Identity), (do
      let routines ← ws.mapM (lookUp known.routines schemas)
      return distinctIdentities (relations ++ routines.flatten) : Traced (List Identity)).result = .ok is ↔
        (∀ w ∈ ws, checkWritten schemas w = .ok ()) ∧
          distinctIdentities (relations ++ (ws.map (lookedUp known.routines schemas)).flatten) = is := by
    intro ws relations
    simp only [Traced.bind_ok, Traced.mapM_result, lookUp_result, mapM_check_ok, Traced.pure_ok]
    constructor
    · rintro ⟨_, ⟨hws, rfl⟩, rfl⟩
      exact ⟨hws, rfl⟩
    · rintro ⟨hws, rfl⟩
      exact ⟨_, ⟨hws, rfl⟩, rfl⟩
  unfold bodyReferences
  simp only [Traced.bind_ok, Traced.lift_result, Traced.mapM_result, hrelation, mapM_check_ok]
  constructor
  · rintro ⟨found, hfound, _, ⟨hrel, rfl⟩, h⟩
    split at h
    · cases h
    · rename_i hsort
      obtain ⟨hfun, rfl⟩ := (hroutines _ _).mp h
      exact ⟨found, hfound, ⟨hrel, by simpa using hsort, hfun⟩, rfl⟩
  · rintro ⟨found, hfound, hs, rfl⟩
    refine ⟨found, hfound, _, ⟨hs.relations, rfl⟩, ?_⟩
    rw [if_neg (by simp [hs.sortable])]
    exact (hroutines _ _).mpr ⟨hs.functions, rfl⟩

-- ---------------------------------------------------------------------------
-- Objects
-- ---------------------------------------------------------------------------

def bodyDependencies (is : List Identity) : List Dependency :=
  is.map fun i => ⟨i, some .referential⟩

theorem addBodyReferences_result (o : Object) (is : List Identity) :
    (addBodyReferences o is).result =
      .ok (.make o.identity o.payload (o.dependencies ++ bodyDependencies is) o.oid) := by
  unfold addBodyReferences
  simp only
  split <;> rfl

/-- An object without a body to be searched stays as it is; another one also
refers to what its body names. -/
theorem augment_ok [Sql.Parser] {known : Known} : (augment known o).result = .ok o' ↔
    (searchedBody? o = none ∧ o = o') ∨ ∃ sql schemas found, searchedBody? o = some (.text sql) ∧
      bodySchemas o.identity = .ok schemas ∧ Sql.references sql = .ok found ∧
      Searchable schemas found ∧ o' = .make o.identity o.payload
        (o.dependencies ++ bodyDependencies (bodyTargets known schemas found)) o.oid := by
  unfold augment
  cases hb : searchedBody? o with
  | none => simp [Traced.pure_ok]
  | some body =>
    simp only [Traced.bind_ok, Traced.lift_result, reduceCtorEq, false_and, false_or,
      Option.some.injEq]
    constructor
    · rintro ⟨schemas, hschemas, h⟩
      split at h
      · simp only [Traced.bind_ok, bodyReferences_ok, addBodyReferences_result, Except.ok.injEq] at h
        obtain ⟨_, ⟨found, hfound, hs, rfl⟩, rfl⟩ := h
        exact ⟨_, schemas, found, rfl, hschemas, hfound, hs, rfl⟩
      · cases h
    · rintro ⟨sql, schemas, found, rfl, hschemas, hfound, hs, rfl⟩
      refine ⟨schemas, hschemas, ?_⟩
      simp only [Traced.bind_ok, bodyReferences_ok, addBodyReferences_result, Except.ok.injEq]
      exact ⟨_, ⟨found, hfound, hs, rfl⟩, rfl⟩

theorem mem_make_points {ds : List Dependency} :
    p ∈ (Object.make i payload ds oid).dependencies.map Dependency.point ↔
      p ∈ ds.map Dependency.point ∧ p.1 ≠ i.address := by
  have hmerge : p ∈ (mergeDependencies [] ds).map Dependency.point ↔ p ∈ ds.map Dependency.point := by
    rw [mem_mergeDependencies_points]
    simp
  rw [← hmerge]
  simp only [Object.make, List.mem_map, List.mem_filter, Bool.not_eq_true', Identity.same_eq_false]
  constructor
  · rintro ⟨d, ⟨hd, hne⟩, rfl⟩
    exact ⟨⟨d, hd, rfl⟩, hne⟩
  · rintro ⟨⟨d, hd, rfl⟩, hne⟩
    exact ⟨d, ⟨hd, hne⟩, rfl⟩

-- ---------------------------------------------------------------------------
-- Batches
-- ---------------------------------------------------------------------------

theorem augmentAll_ok [Sql.Parser] : (augmentAll batches).result = .ok b ↔ List.Forall₂ (fun x y => x.1 = y.1 ∧
    List.Forall₂ (fun o o' => (augment (Known.ofBatches batches) o).result = .ok o') x.2 y.2)
      batches b := by
  unfold augmentAll
  rw [Traced.mapM_result, mapM_ok]
  have hstep : ∀ (x y : String × List Object), (do
      return (x.1, ← x.2.mapM (augment (Known.ofBatches batches))) : Traced _).result = .ok y ↔
        x.1 = y.1 ∧ List.Forall₂ (fun o o' => (augment (Known.ofBatches batches) o).result = .ok o')
          x.2 y.2 := by
    intro x y
    simp only [Traced.bind_ok, Traced.mapM_result, mapM_ok, Traced.pure_ok]
    constructor
    · rintro ⟨os, hos, rfl⟩
      exact ⟨rfl, hos⟩
    · rintro ⟨hl, hos⟩
      exact ⟨y.2, hos, Prod.ext hl rfl⟩
  exact ⟨fun h => h.imp fun x y => (hstep x y).mp, fun h => h.imp fun x y => (hstep x y).mpr⟩

theorem augmentAll_arrivals [Sql.Parser] (h : (augmentAll batches).result = .ok b) :
    List.Forall₂ (fun o o' => (augment (Known.ofBatches batches) o).result = .ok o')
      (arrivals batches) (arrivals b) := by
  have hall := augmentAll_ok.mp h
  generalize Known.ofBatches batches = known at hall ⊢
  clear h
  induction hall with
  | nil => exact .nil
  | cons hxy _ ih =>
    simp only [arrivals, List.flatMap_cons]
    exact List.rel_append hxy.2 ih

theorem augmentAll_isOk [Sql.Parser] (batches : Batches) : (∃ b, (augmentAll batches).result = .ok b) ↔
    ∀ o ∈ arrivals batches, ∃ o', (augment (Known.ofBatches batches) o).result = .ok o' := by
  unfold augmentAll
  rw [Traced.mapM_result, mapM_isOk]
  simp only [arrivals, List.mem_flatMap, forall_exists_index, and_imp, Traced.bind_ok,
    Traced.mapM_result, Traced.pure_ok]
  constructor
  · intro h o x hx ho
    obtain ⟨_, os, hos, -⟩ := h x hx
    exact mapM_isOk.mp ⟨os, hos⟩ o ho
  · intro h x hx
    obtain ⟨os, hos⟩ := mapM_isOk.mpr fun o ho => h o x hx ho
    exact ⟨_, os, hos, rfl⟩

end CatalogPlan.Routine
