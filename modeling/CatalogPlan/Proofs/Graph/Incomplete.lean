import CatalogPlan.Proofs.Graph.Exact

/-!
# Captures that failed

Kinds whose capture failed bear on dropped references alone. A build that fails
without them fails with them. Otherwise both builds take in the same references up
to the first dropped one into a catalog of these kinds, which is fatal; where there
is none they give the same graph.
-/

namespace CatalogPlan

variable {os : List Object} {batches : Batches} {failed : List Kind} {failedKinds : List Value}
  {g : Graph} {refs : List (Identity × Dependency)} {found : List (Option Edge)}

namespace Diagnostic

def into (d : Diagnostic) (failed : List Kind) : Bool :=
  failed.any (·.catalog = d.target.kind.catalog)

def fault (d : Diagnostic) (failed : List Kind) : Fault :=
  .incomplete (failed.filter (·.catalog = d.target.kind.catalog)) (some d.source) (some d.target)

theorem into_iff {d : Diagnostic} :
    d.into failed = true ↔ ∃ kind ∈ failed, kind.catalog = d.target.kind.catalog := by
  simp [into]

@[simp] theorem into_eraseDups (d : Diagnostic) : d.into failed.eraseDups = d.into failed := by
  rw [Bool.eq_iff_iff, into_iff, into_iff]
  simp only [List.mem_eraseDups]

end Diagnostic

-- ---------------------------------------------------------------------------
-- Two runs over references
-- ---------------------------------------------------------------------------

/-- Only a dropped reference comes to something else. -/
theorem outcome_failed (os : List Object) (failed : List Kind) (r : Identity × Dependency) :
    outcome os failed r = ((dropped? os r).filter (·.into failed)).elim (outcome os [] r)
      fun d => .error (d.fault failed) := by
  cases hres : resolved? os r.2.target with
  | some t => simp [dropped?_of_resolved hres, outcome_of_resolved hres]
  | none =>
    have hinto : (⟨r.1, r.2.target, Graph.outOfScope⟩ : Diagnostic).into failed =
        !(failed.filter (·.catalog = r.2.target.kind.catalog)).isEmpty := by
      rw [Bool.eq_iff_iff, Diagnostic.into_iff]
      simp
    cases hf : failed.filter (·.catalog = r.2.target.kind.catalog) with
    | nil => simp [outcome, dropped?, hres, hinto, hf, Option.filter]
    | cons kind kinds =>
      simp [outcome, dropped?, hres, hinto, hf, Option.filter, Diagnostic.fault]

theorem outcome_of_failed (h : outcome os failed r = .ok e) : outcome os [] r = .ok e := by
  rw [outcome_failed] at h
  cases hd : (dropped? os r).filter (·.into failed) with
  | none => simpa [hd] using h
  | some d => simp [hd] at h

theorem outcomes_failed (failed : List Kind) (h : refs.mapM (outcome os []) = .ok found) :
    refs.mapM (outcome os failed) =
      ((refs.filterMap (dropped? os)).find? (·.into failed)).elim (.ok found)
        fun d => .error (d.fault failed) := by
  induction refs generalizing found with
  | nil => exact h
  | cons r rest ih =>
    simp only [List.mapM_cons, bind_ok, pure_ok] at h
    obtain ⟨e, he, es, hes, rfl⟩ := h
    have hrest : (outcome os [] r >>= fun e => rest.mapM (outcome os failed) >>= fun es => pure (e :: es)) =
        ((rest.filterMap (dropped? os)).find? (·.into failed)).elim (.ok (e :: es))
          fun d => .error (d.fault failed) := by
      rw [he, ih hes]
      cases (rest.filterMap (dropped? os)).find? (·.into failed) <;> rfl
    rw [List.mapM_cons, outcome_failed os failed r]
    cases hd : dropped? os r with
    | none => simpa [hd] using hrest
    | some d =>
      cases hinto : d.into failed with
      | true => simp [hd, hinto, Option.filter, bind, Except.bind]
      | false => simpa [hd, hinto, Option.filter] using hrest

theorem build_of_captured (hk : Graph.readKinds failedKinds = .ok failed)
    (h : (Graph.build batches []).result = .ok g) : (Graph.build batches failedKinds).result =
      (g.diagnostics.find? (·.into failed)).elim (.ok g) fun d => .error (d.fault failed.eraseDups) := by
  obtain ⟨kinds, hkinds, hcons, found, hfound, rfl⟩ := build_ok.mp h
  obtain rfl : [] = kinds := Except.ok.inj hkinds
  have hrun := outcomes_failed failed.eraseDups hfound
  simp only [Diagnostic.into_eraseDups] at hrun
  simp only [assembled]
  generalize ((orderedReferences (arrivals batches)).filterMap (dropped? (arrivals batches))).find?
    (·.into failed) = first at hrun ⊢
  cases first with
  | none => exact build_ok.mpr ⟨failed, hk, hcons, found, hrun, rfl⟩
  | some d => exact build_error.mpr (.inr ⟨failed, hk, .inr ⟨hcons, hrun⟩⟩)

theorem build_of_failed (h : (Graph.build batches failedKinds).result = .ok g) :
    (Graph.build batches []).result = .ok g := by
  obtain ⟨failed, -, hcons, found, hfound, rfl⟩ := build_ok.mp h
  refine build_ok.mpr ⟨[], rfl, hcons, found, mapM_ok.mpr ?_, rfl⟩
  exact (mapM_ok.mp hfound).imp fun _ _ => outcome_of_failed

-- ---------------------------------------------------------------------------
-- The kinds of a fault
-- ---------------------------------------------------------------------------

theorem Kind.name_inj {a b : Kind} (h : a.name = b.name) : a = b := by
  cases a <;> cases b <;> first | rfl | exact absurd h (by decide)

theorem eraseDups_nodup [DecidableEq α] (xs : List α) : xs.eraseDups.Nodup := by
  induction xs using List.reverseRecOn with
  | nil => simp
  | append_singleton xs x ih =>
    rw [List.eraseDups_append]
    by_cases hx : x ∈ xs
    · simpa [List.removeAll, hx] using ih
    · simpa [List.removeAll, hx, List.eraseDups_cons, List.nodup_append'] using ih

theorem mem_kindNames : name ∈ kindNames kinds ↔ ∃ kind ∈ kinds, kind.name = name := by
  simp [kindNames, (sortBy_perm _ _).mem_iff]

theorem kindNames_strict (h : kinds.Nodup) : (kindNames kinds).Pairwise (· < ·) := by
  have hnames : (kinds.map Kind.name).Nodup := h.map fun _ _ => Kind.name_inj
  have hkey : ∀ a ∈ kinds.map Kind.name, ∀ b ∈ kinds.map Kind.name, id a = id b → a = b :=
    fun _ _ _ _ h => h
  refine (sortOn_strict linearLe_text hkey hnames).imp fun {a b} ⟨hle, hne⟩ => ?_
  have hlt : textLt a b = true := by
    rw [textLt_eq]
    simpa using ⟨hle, hne⟩
  simpa [textLt] using hlt

/-- Failed captures only make dropped references fatal: with them a build fails
where it failed, gives the graph that it gave when no dropped reference points
into a catalog of theirs, and otherwise fails with the first one that does and
with their kinds of its catalog. -/
theorem build_failed (hk : Graph.readKinds failedKinds = .ok failed) :
    (∀ fault, (Graph.build batches []).result = .error fault →
      ∃ fault', (Graph.build batches failedKinds).result = .error fault') ∧
    ∀ g, (Graph.build batches []).result = .ok g →
      ((∀ d ∈ g.diagnostics, d.into failed = false) →
        (Graph.build batches failedKinds).result = .ok g) ∧
      ∀ d, g.diagnostics.find? (·.into failed) = some d → ∃ kinds,
        (Graph.build batches failedKinds).result =
          .error (.incomplete kinds (some d.source) (some d.target)) ∧
        (kindNames kinds).Pairwise (· < ·) ∧ ∀ name, name ∈ kindNames kinds ↔
          ∃ kind ∈ failed, kind.catalog = d.target.kind.catalog ∧ kind.name = name := by
  refine ⟨fun fault hf => ?_, fun g hg => ⟨fun hall => ?_, fun d hd => ?_⟩⟩
  · cases hb : (Graph.build batches failedKinds).result with
    | error fault' => exact ⟨fault', rfl⟩
    | ok g =>
      rw [build_of_failed hb] at hf
      cases hf
  · have hnone : g.diagnostics.find? (·.into failed) = none := by simpa using hall
    rw [build_of_captured hk hg, hnone]
    rfl
  · refine ⟨failed.eraseDups.filter (·.catalog = d.target.kind.catalog), ?_,
      kindNames_strict ((eraseDups_nodup failed).filter _), fun name => ?_⟩
    · rw [build_of_captured hk hg, hd]
      rfl
    · rw [mem_kindNames]
      simp [and_assoc]

def orphan : Batches :=
  [("view",
      [⟨⟨.view, .name "app.v"⟩, [],
        [⟨⟨.table, .name "app.t"⟩, none⟩, ⟨⟨.type, .oid 23⟩, none⟩], none⟩])]

theorem build_failed_orphan :
    Graph.readKinds [.text "table", .text "schema", .text "index"] = .ok [.table, .namespace, .index] ∧
    ∃ kinds, (Graph.build orphan [.text "table", .text "schema", .text "index"]).result =
      .error (.incomplete kinds (some ⟨.view, .name "app.v"⟩) (some ⟨.table, .name "app.t"⟩)) ∧
      (kindNames kinds).Pairwise (· < ·) ∧
        ∀ name, name ∈ kindNames kinds ↔ name = "table" ∨ name = "index" := by
  have hk : Graph.readKinds [.text "table", .text "schema", .text "index"] =
      .ok [.table, .namespace, .index] := rfl
  obtain ⟨g, hg, hd⟩ : ∃ g, (Graph.build orphan []).result = .ok g ∧
      g.diagnostics.find? (·.into [.table, .namespace, .index]) =
        some ⟨⟨.view, .name "app.v"⟩, ⟨.table, .name "app.t"⟩, Graph.outOfScope⟩ := ⟨_, rfl, rfl⟩
  obtain ⟨kinds, hfault, hstrict, hnames⟩ := ((build_failed hk).2 g hg).2 _ hd
  refine ⟨hk, kinds, hfault, hstrict, fun name => (hnames name).trans ?_⟩
  simp [Kind.catalog, Kind.name, eq_comm]

end CatalogPlan
