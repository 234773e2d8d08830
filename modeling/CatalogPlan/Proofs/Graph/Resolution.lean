import CatalogPlan.Proofs.Graph.Collection

/-!
# What references come to

What a reference leads to depends on the arrivals alone, not on the references
that were taken in before it: a schema that a run adds is the one that a later
reference would add. So a run over all references is each one's own outcome, put
together.
-/

namespace CatalogPlan

-- ---------------------------------------------------------------------------
-- Resolution
-- ---------------------------------------------------------------------------

def isNewSchema (os : List Object) (target : Identity) : Bool :=
  !target.isNumeric && target.kind == .namespace && (captured? os target).isNone

/-- The captured object that a target stands for: the one that has the number,
or the one that has the name. -/
def registered? (os : List Object) (target : Identity) : Option Object :=
  match target.key with
  | .oid n => (holder? os target.kind.catalog n).bind fun o => captured? os o.identity
  | .name _ => captured? os target

def resolved? (os : List Object) (target : Identity) : Option Identity :=
  match registered? os target with
  | some o => some o.identity
  | none => if isNewSchema os target then some target else none

theorem isNewSchema_iff : isNewSchema os target = true ↔
    target.isNumeric = false ∧ target.kind = .namespace ∧ captured? os target = none := by
  simp [isNewSchema, and_assoc]

theorem registered?_mem (h : registered? os target = some o) : captured? os o.identity = some o := by
  unfold registered? at h
  have hself : ∀ i, captured? os i = some o → captured? os o.identity = some o := by
    intro i hi
    rw [captured?_congr _ (captured?_mem hi).2]
    exact hi
  split at h
  · obtain ⟨k, -, hk⟩ := Option.bind_eq_some_iff.mp h
    exact hself _ hk
  · exact hself _ h

theorem registered?_named (h : target.isNumeric = false) : registered? os target = captured? os target := by
  obtain ⟨s, hs⟩ := Identity.eq_name_of_not_numeric h
  rw [registered?, hs]

theorem registered?_numbered (h : target.key = .oid n) : registered? os target =
    (holder? os target.kind.catalog n).bind fun o => captured? os o.identity := by
  rw [registered?, h]

theorem resolved?_of_newSchema (h : isNewSchema os target = true) : resolved? os target = some target := by
  obtain ⟨hnamed, -, hnone⟩ := isNewSchema_iff.mp h
  rw [resolved?, registered?_named hnamed, hnone]
  exact if_pos h

theorem resolved?_of_not_newSchema (h : isNewSchema os target = false) :
    resolved? os target = (registered? os target).map (·.identity) := by
  unfold resolved?
  split
  · rename_i o ho
    rw [ho]
    rfl
  · rename_i hnone
    rw [hnone, h]
    rfl

theorem resolved?_eq_some_iff : resolved? os target = some t ↔
    (∃ o, registered? os target = some o ∧ o.identity = t) ∨ (isNewSchema os target = true ∧ target = t) := by
  cases hnew : isNewSchema os target with
  | true =>
    have hreg : registered? os target = none := by
      obtain ⟨hnamed, -, hnone⟩ := isNewSchema_iff.mp hnew
      rw [registered?_named hnamed, hnone]
    simp [resolved?_of_newSchema hnew, hreg]
  | false => simp [resolved?_of_not_newSchema hnew]

theorem isNewSchema_congr (os : List Object) (h : i.address = j.address) :
    isNewSchema os i = isNewSchema os j := by
  have hkind : i.kind = .namespace ↔ j.kind = .namespace :=
    ⟨fun hi => Identity.eq_of_namespace h hi ▸ hi, fun hj => Identity.eq_of_namespace h.symm hj ▸ hj⟩
  rw [Bool.eq_iff_iff, isNewSchema_iff, isNewSchema_iff, Identity.isNumeric_congr h, hkind,
    captured?_congr os h]

theorem registered?_congr (os : List Object) (h : i.address = j.address) :
    registered? os i = registered? os j := by
  have hkey : i.key = j.key := congrArg Address.key h
  have hcatalog : i.kind.catalog = j.kind.catalog := congrArg Address.catalog h
  rw [registered?, registered?, hkey, hcatalog, captured?_congr os h]

theorem resolved?_congr (os : List Object) (h : i.address = j.address) :
    resolved? os i = resolved? os j := by
  have hnew := isNewSchema_congr os h
  cases hi : isNewSchema os i with
  | true => rw [Identity.eq_of_namespace h (isNewSchema_iff.mp hi).2.1]
  | false =>
    rw [resolved?_of_not_newSchema hi, resolved?_of_not_newSchema (hnew ▸ hi), registered?_congr os h]

def unmet (failed : List Kind) (target : Identity) : Graph.Resolution :=
  match failed.filter (·.catalog = target.kind.catalog) with
  | [] => .outside
  | kinds => .failedCapture kinds

theorem find?_schema {schemas : List Identity} (hnew : ∀ s ∈ schemas, isNewSchema os s = true)
    (i : Identity) : captured? (schemas.map Graph.syntheticSchema) i =
      if schemas.any (·.same i) then some (Graph.syntheticSchema i) else none := by
  induction schemas with
  | nil => rfl
  | cons s rest ih =>
    have hrest := ih fun k hk => hnew k (List.mem_cons_of_mem _ hk)
    by_cases hs : s.same i = true
    · obtain rfl := Identity.eq_of_namespace (Identity.same_iff.mp hs)
        (isNewSchema_iff.mp (hnew s (by simp))).2.1
      simp [captured?, Graph.syntheticSchema]
    · unfold captured? at hrest ⊢
      rw [List.map_cons, List.find?_cons_of_neg (by simpa [Graph.syntheticSchema] using hs), hrest,
        List.any_cons, Bool.eq_false_iff.mpr hs, Bool.false_or]

theorem resolve_eq (hc : Collected os c) {schemas : List Identity}
    (hnew : ∀ s ∈ schemas, isNewSchema os s = true) (failed : List Kind) (g : Graph)
    (hg : g.objects = firsts os ++ schemas.map Graph.syntheticSchema) (target : Identity) :
    g.resolve c.oids failed target = (resolved? os target).elim (unmet failed target) fun t =>
      if isNewSchema os target && !schemas.any (·.same target) then .newSchema target else .node t := by
  have hfind : ∀ i, g.find? i = (captured? os i).or
      (if schemas.any (·.same i) then some (Graph.syntheticSchema i) else none) := by
    intro i
    show captured? g.objects i = _
    rw [hg, captured?_append, captured?_firsts, find?_schema hnew]
  unfold Graph.resolve
  cases hkey : target.key with
  | oid n =>
    have hnum : isNewSchema os target = false := by
      simp [isNewSchema, Identity.isNumeric, hkey, Key.isNumeric]
    have hreg : (c.oids.lookup (target.kind.catalog, n)).bind g.find? = registered? os target := by
      rw [hc.number, registered?_numbered hkey]
      cases hh : holder? os target.kind.catalog n with
      | none => rfl
      | some o =>
        have hsome : (captured? os o.identity).isSome :=
          captured?_isSome_iff.mpr (List.mem_map_of_mem (holder?_mem hh).1)
        obtain ⟨k, hk⟩ := Option.isSome_iff_exists.mp hsome
        simp [hfind, hk]
    simp only [hreg, resolved?_of_not_newSchema hnum, hnum, Bool.false_and, Bool.false_eq_true, if_false]
    cases registered? os target <;> rfl
  | name s =>
    have hnamed : target.isNumeric = false := by simp [Identity.isNumeric, hkey, Key.isNumeric]
    simp only [hfind]
    cases hcap : captured? os target with
    | some o =>
      have hold : isNewSchema os target = false := by simp [isNewSchema, hcap]
      simp [resolved?_of_not_newSchema hold, registered?_named hnamed, hcap, hold]
    | none =>
      by_cases hk : target.kind = .namespace
      · have hns : isNewSchema os target = true := isNewSchema_iff.mpr ⟨hnamed, hk, hcap⟩
        rw [resolved?_of_newSchema hns, hns]
        cases schemas.any (·.same target) <;> simp [hk, Graph.syntheticSchema]
      · have hold : isNewSchema os target = false := by simp [isNewSchema, hk]
        have hany : schemas.any (·.same target) = false := by
          rw [List.any_eq_false]
          intro i hi hsame
          obtain rfl := Identity.eq_of_namespace (Identity.same_iff.mp hsame)
            (isNewSchema_iff.mp (hnew i hi)).2.1
          exact hk (isNewSchema_iff.mp (hnew i hi)).2.1
        simp only [resolved?_of_not_newSchema hold, registered?_named hnamed, hcap, hany, hk,
          Bool.false_eq_true, if_false, Option.or_none, Option.map_none, Option.elim_none]
        rfl

-- ---------------------------------------------------------------------------
-- Outcomes of references
-- ---------------------------------------------------------------------------

def edgeClassOf (os : List Object) (source : Identity) (d : Dependency) (target : Identity) :
    Except Fault EdgeClass :=
  match d.edgeClass, captured? os source with
  | some c, _ => .ok c
  | none, some o => defaultEdgeClass o target
  | none, none => .ok (classifyEdge source.kind target.kind)

theorem edgeClassOf_captured (h : captured? os source = some o) (d : Dependency) (target : Identity) :
    edgeClassOf os source d target = d.edgeClass.elim (defaultEdgeClass o target) .ok := by
  unfold edgeClassOf
  rw [h]
  cases d.edgeClass <;> rfl

/-- What a reference comes to: an edge, nothing, or a fault. -/
def outcome (os : List Object) (failed : List Kind) (r : Identity × Dependency) :
    Except Fault (Option Edge) :=
  match resolved? os r.2.target with
  | none =>
    match failed.filter (·.catalog = r.2.target.kind.catalog) with
    | [] => .ok none
    | kinds => .error (.incomplete kinds (some r.1) (some r.2.target))
  | some t =>
    if t.same r.1 then .ok none
    else do return some (Edge.orient ⟨r.1, t, ← edgeClassOf os r.1 r.2 t⟩)

def dropped? (os : List Object) (r : Identity × Dependency) : Option Diagnostic :=
  if (resolved? os r.2.target).isNone then some ⟨r.1, r.2.target, Graph.outOfScope⟩ else none

def newSchemas (os : List Object) (refs : List (Identity × Dependency)) : List Identity :=
  distinctIdentities ((refs.map (·.2.target)).filter (isNewSchema os))

def strengthen (es : List Edge) (e : Edge) : List Edge :=
  match es.find? (·.joins e.source e.target) with
  | none => es ++ [e]
  | some known =>
    if e.edgeClass.binding ≤ known.edgeClass.binding then es
    else es.map fun k => if k.joins e.source e.target then e else k

def assembled (os : List Object) (refs : List (Identity × Dependency)) (found : List (Option Edge)) :
    Graph :=
  ⟨firsts os ++ (newSchemas os refs).map Graph.syntheticSchema, (found.filterMap id).foldl strengthen [],
    refs.filterMap (dropped? os)⟩

theorem distinctIdentities_snoc (is : List Identity) (i : Identity) : distinctIdentities (is ++ [i]) =
    if (distinctIdentities is).any (·.same i) then distinctIdentities is
    else distinctIdentities is ++ [i] := by
  simp [distinctIdentities, List.foldl_append]

theorem distinctIdentities_subset (is : List Identity) : distinctIdentities is ⊆ is := by
  induction is using List.reverseRecOn with
  | nil => simp [distinctIdentities]
  | append_singleton is i ih =>
    rw [distinctIdentities_snoc]
    split
    · exact List.Subset.trans ih (List.subset_append_left ..)
    · exact List.append_subset.mpr
        ⟨List.Subset.trans ih (List.subset_append_left ..), List.subset_append_right ..⟩

theorem distinctIdentities_covers {is : List Identity} (h : i ∈ is) :
    ∃ j ∈ distinctIdentities is, j.same i = true := by
  induction is using List.reverseRecOn with
  | nil => simp at h
  | append_singleton is k ih =>
    rw [distinctIdentities_snoc]
    rcases List.mem_append.mp h with h | h
    · obtain ⟨j, hj, hs⟩ := ih h
      split
      · exact ⟨j, hj, hs⟩
      · exact ⟨j, List.mem_append_left _ hj, hs⟩
    · obtain rfl := List.mem_singleton.mp h
      split
      · rename_i hany
        exact List.any_eq_true.mp hany
      · exact ⟨i, by simp, Identity.same_refl i⟩

theorem mem_distinctIdentities {is : List Identity} {a : Address} :
    a ∈ (distinctIdentities is).map Identity.address ↔ a ∈ is.map Identity.address := by
  constructor
  · exact fun h => List.map_subset _ (distinctIdentities_subset is) h
  · rw [List.mem_map]
    rintro ⟨i, hi, rfl⟩
    obtain ⟨j, hj, hs⟩ := distinctIdentities_covers hi
    exact List.mem_map.mpr ⟨j, hj, Identity.same_iff.mp hs⟩

theorem distinctIdentities_nodup (is : List Identity) :
    ((distinctIdentities is).map Identity.address).Nodup := by
  induction is using List.reverseRecOn with
  | nil => simp [distinctIdentities]
  | append_singleton is k ih =>
    rw [distinctIdentities_snoc]
    split
    · exact ih
    · rename_i hany
      have hnew : k.address ∉ (distinctIdentities is).map Identity.address := by
        simpa [Identity.same_iff] using hany
      rw [List.map_append]
      exact List.nodup_append'.mpr ⟨ih, List.nodup_singleton _, by simpa using hnew⟩

theorem newSchemas_snoc (os : List Object) (refs : List (Identity × Dependency))
    (r : Identity × Dependency) : newSchemas os (refs ++ [r]) =
      if isNewSchema os r.2.target && !(newSchemas os refs).any (·.same r.2.target) then
        newSchemas os refs ++ [r.2.target]
      else newSchemas os refs := by
  unfold newSchemas
  rw [List.map_append, List.filter_append]
  cases hnew : isNewSchema os r.2.target with
  | false => simp [hnew]
  | true =>
    simp only [List.map_cons, List.map_nil, List.filter_cons, hnew, if_true, List.filter_nil,
      distinctIdentities_snoc, Bool.true_and]
    split <;> rename_i hany <;> simp [hany]

theorem assembled_snoc (os : List Object) (refs : List (Identity × Dependency))
    (found : List (Option Edge)) (r : Identity × Dependency) (e : Option Edge) :
    assembled os (refs ++ [r]) (found ++ [e]) =
      ⟨(assembled os refs found).objects ++
          (if isNewSchema os r.2.target && !(newSchemas os refs).any (·.same r.2.target) then
            [Graph.syntheticSchema r.2.target] else []),
        e.elim (assembled os refs found).edges (strengthen (assembled os refs found).edges),
        (assembled os refs found).diagnostics ++ (dropped? os r).toList⟩ := by
  unfold assembled
  rw [newSchemas_snoc, List.filterMap_append, List.filterMap_append, List.foldl_append]
  congr 1
  · split <;> simp
  · cases e <;> rfl

theorem mem_newSchemas (h : s ∈ newSchemas os refs) :
    isNewSchema os s = true ∧ ∃ r ∈ refs, r.2.target = s := by
  have hs := distinctIdentities_subset _ h
  obtain ⟨hs, hnew⟩ := List.mem_filter.mp hs
  obtain ⟨r, hr, rfl⟩ := List.mem_map.mp hs
  exact ⟨hnew, r, hr, rfl⟩

-- ---------------------------------------------------------------------------
-- Taking in references
-- ---------------------------------------------------------------------------

theorem addEdge_result (g : Graph) (e : Edge) :
    (g.addEdge e).result = .ok { g with edges := strengthen g.edges e } := by
  unfold Graph.addEdge strengthen
  cases g.edges.find? (·.joins e.source e.target) with
  | none => rfl
  | some known =>
    by_cases hb : e.edgeClass.binding ≤ known.edgeClass.binding
    · simp only [hb, if_true]
      rfl
    · simp only [hb, if_false]
      exact Traced.emit_bind _ _

theorem connect_result {g : Graph} (hg : g.find? source = captured? os source) (d : Dependency)
    (t : Identity) : (g.connect source t d.edgeClass).result =
      if t.same source then .ok g
      else (edgeClassOf os source d t).map fun c =>
        { g with edges := strengthen g.edges (Edge.orient ⟨source, t, c⟩) } := by
  unfold Graph.connect edgeClassOf
  split
  · rfl
  · rw [hg]
    cases d.edgeClass with
    | some c => exact addEdge_result g _
    | none =>
      cases captured? os source with
      | none => exact addEdge_result g _
      | some o =>
        simp only [Traced.result_bind, Traced.lift_result, addEdge_result]
        rfl

theorem outcome_of_resolved (h : resolved? os r.2.target = some t) (failed : List Kind) :
    outcome os failed r = if t.same r.1 then .ok none
      else (edgeClassOf os r.1 r.2 t).map fun c => some (Edge.orient ⟨r.1, t, c⟩) := by
  rw [outcome, h]
  simp only
  split
  · rfl
  · cases edgeClassOf os r.1 r.2 t <;> rfl

theorem dropped?_of_resolved (h : resolved? os r.2.target = some t) : dropped? os r = none := by
  simp [dropped?, h]

/-- A reference comes to its outcome, whatever references were taken in before. -/
theorem addReference_result (hc : Collected os c) (failed : List Kind)
    (refs : List (Identity × Dependency)) (found : List (Option Edge)) (r : Identity × Dependency)
    (hr : (captured? os r.1).isSome) :
    (Graph.addReference c.oids failed (assembled os refs found) r).result =
      (outcome os failed r).map fun e => assembled os (refs ++ [r]) (found ++ [e]) := by
  have hnew : ∀ s ∈ newSchemas os refs, isNewSchema os s = true := fun s hs => (mem_newSchemas hs).1
  obtain ⟨o, ho⟩ := Option.isSome_iff_exists.mp hr
  have hsource : ∀ more, captured? (firsts os ++ more) r.1 = captured? os r.1 := by
    intro more
    rw [captured?_append, captured?_firsts, ho, Option.some_or]
  have hfind : ∀ more, Graph.find? { assembled os refs found with
      objects := (assembled os refs found).objects ++ more } r.1 = captured? os r.1 := by
    intro more
    show captured? (firsts os ++ _ ++ more) r.1 = _
    rw [List.append_assoc, hsource]
  unfold Graph.addReference
  simp only [resolve_eq hc hnew failed (assembled os refs found) rfl, assembled_snoc]
  cases hres : resolved? os r.2.target with
  | none =>
    have hold : isNewSchema os r.2.target = false := by
      by_contra h
      rw [resolved?_of_newSchema (by simpa using h)] at hres
      simp at hres
    cases hf : failed.filter (·.catalog = r.2.target.kind.catalog) with
    | nil =>
      simp only [outcome, hres, Option.elim_none, unmet, hf, Traced.emit_bind, Traced.result_pure]
      simp [hold, dropped?, hres, Except.map]
    | cons kind kinds =>
      simp only [outcome, hres, Option.elim_none, unmet, hf]
      rfl
  | some t =>
    simp only [Option.elim_some]
    rw [outcome_of_resolved hres, dropped?_of_resolved hres]
    -- A schema is added with the first reference to it and found by the later ones.
    by_cases hs : (isNewSchema os r.2.target &&
        !(newSchemas os refs).any (·.same r.2.target)) = true
    · simp only [hs, if_true, Traced.emit_bind]
      simp only [Bool.and_eq_true] at hs
      obtain rfl : r.2.target = t := by
        rw [resolved?_of_newSchema hs.1] at hres
        exact Option.some.inj hres
      rw [connect_result (hfind _)]
      split
      · simp [Except.map]
      · cases edgeClassOf os r.1 r.2 r.2.target <;> simp [Except.map]
    · simp only [hs, Bool.false_eq_true, if_false]
      have hg : (assembled os refs found).find? r.1 = captured? os r.1 := hsource _
      rw [connect_result hg]
      split
      · simp [Except.map]
      · cases edgeClassOf os r.1 r.2 t <;> simp [Except.map]

theorem addReferences_result (hc : Collected os c) (failed : List Kind)
    (refs : List (Identity × Dependency)) (hrefs : ∀ r ∈ refs, (captured? os r.1).isSome) :
    (Graph.addReferences c.oids failed ⟨c.objects, [], []⟩ refs).result =
      (refs.mapM (outcome os failed)).map (assembled os refs) := by
  induction refs using List.reverseRecOn with
  | nil => simp [Graph.addReferences, assembled, newSchemas, distinctIdentities, hc.objects, pure,
      Except.pure, Except.map]
  | append_singleton refs r ih =>
    have ih' := ih fun k hk => hrefs k (by simp [hk])
    unfold Graph.addReferences at ih' ⊢
    rw [List.foldlM_append, Traced.result_bind, ih', List.mapM_append]
    cases refs.mapM (outcome os failed) with
    | error fault => rfl
    | ok found =>
      show ([r].foldlM _ _ : Traced Graph).result = _
      simp only [List.foldlM_cons, List.foldlM_nil, Traced.result_bind]
      rw [addReference_result hc failed refs found r (hrefs r (by simp))]
      simp only [List.mapM_cons, List.mapM_nil]
      cases outcome os failed r <;> rfl

end CatalogPlan
