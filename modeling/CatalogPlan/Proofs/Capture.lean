import CatalogPlan.Capture
import CatalogPlan.Proofs.Arrival.Order

/-!
# Captures are complete, whichever fetch ends first

A capture takes in one fetch after another as they come to their ends. It gives the
objects of every requested kind or fails, and neither what it gives nor the plan
made of it depends on the order of the ends.
-/

namespace CatalogPlan

-- ---------------------------------------------------------------------------
-- Entries under keys
-- ---------------------------------------------------------------------------

section
variable {α β : Type} [DecidableEq α]

def setEntry : List (α × β) → α → β → List (α × β)
  | [], key, b => [(key, b)]
  | (known, old) :: rest, key, b =>
    if known = key then (known, b) :: rest else (known, old) :: setEntry rest key b

theorem mem_setEntry {entries : List (α × β)} (h : (entries.map Prod.fst).Nodup) :
    (known, c) ∈ setEntry entries key b ↔
      (known = key ∧ c = b) ∨ (known ≠ key ∧ (known, c) ∈ entries) := by
  induction entries with
  | nil => simp [setEntry]
  | cons entry rest ih =>
    obtain ⟨first, old⟩ := entry
    obtain ⟨hnew, hrest⟩ := List.nodup_cons.mp h
    rw [setEntry]
    split
    · rename_i heq
      obtain rfl : first = key := heq
      have hne : (known, c) ∈ rest → known ≠ first := by
        rintro hm rfl
        exact hnew (List.mem_map.mpr ⟨_, hm, rfl⟩)
      simp only [List.mem_cons, Prod.mk.injEq]
      tauto
    · rename_i hne
      simp only [List.mem_cons, ih hrest, Prod.mk.injEq]
      constructor
      · rintro (⟨rfl, rfl⟩ | hset | ⟨hk, hm⟩)
        · exact .inr ⟨hne, .inl ⟨rfl, rfl⟩⟩
        · exact .inl hset
        · exact .inr ⟨hk, .inr hm⟩
      · tauto

theorem nodup_setEntry {entries : List (α × β)} (h : (entries.map Prod.fst).Nodup) (key : α) (b : β) :
    ((setEntry entries key b).map Prod.fst).Nodup := by
  induction entries with
  | nil => exact List.nodup_singleton key
  | cons entry rest ih =>
    obtain ⟨first, old⟩ := entry
    obtain ⟨hnew, hrest⟩ := List.nodup_cons.mp h
    rw [setEntry]
    split
    · exact h
    · rename_i hne
      refine List.nodup_cons.mpr ⟨fun hm => ?_, ih hrest⟩
      obtain ⟨⟨known, c⟩, hf, rfl⟩ := List.mem_map.mp hm
      rcases (mem_setEntry hrest).mp hf with ⟨heq, -⟩ | ⟨-, hf⟩
      · exact hne heq
      · exact hnew (List.mem_map.mpr ⟨_, hf, rfl⟩)

end

theorem Fields.insert_eq (fields : Fields) (name : String) (v : Value) :
    fields.insert name v = setEntry fields name v := by
  induction fields with
  | nil => rfl
  | cons entry rest ih => rw [insert, setEntry, ih]

theorem Captured.insert_eq (captured : Captured) (kind : Kind) (objects : List Object) :
    captured.insert kind objects = setEntry captured kind objects := by
  induction captured with
  | nil => rfl
  | cons entry rest ih => rw [insert, setEntry, ih]

-- ---------------------------------------------------------------------------
-- Payloads of records
-- ---------------------------------------------------------------------------

namespace Value.Proper

theorem insert {fields : Fields} (h : Proper (.object fields)) (hv : Proper v) (name : String) :
    Proper (.object (fields.insert name v)) := by
  obtain ⟨hn, hall⟩ := h.of_object
  rw [Fields.insert_eq]
  refine .object (nodup_setEntry hn name v) fun f hf => ?_
  rcases (mem_setEntry hn).mp hf with ⟨-, heq⟩ | ⟨-, hf⟩
  · exact heq ▸ hv
  · exact hall f hf

theorem get {fields : Fields} (h : Proper (.object fields)) (name : String) :
    Proper (fields.get name) := by
  unfold Fields.get
  cases hget : fields.get? name with
  | none => exact .null
  | some v => exact h.of_object.2 _ (get?_mem hget)

theorem members (h : Proper v) (hm : Object.members? v = some items) : ∀ item ∈ items, Proper item := by
  cases v with
  | list vs =>
    obtain rfl := Option.some.inj hm
    exact h.of_list
  | text s =>
    obtain rfl := Option.some.inj hm
    simp only [List.mem_map]
    rintro _ ⟨c, -, rfl⟩
    exact .text _
  | object fields =>
    obtain rfl := Option.some.inj hm
    simp only [List.mem_map]
    rintro _ ⟨f, -, rfl⟩
    exact .text _
  | null | bool | int | float => cases hm

theorem readPairs {fields : Fields} (h : Proper (.object fields)) (hpairs : ∀ pair ∈ pairs, Proper pair)
    (hread : Object.readPairs index fields pairs = .ok payload) : Proper (.object payload) := by
  induction pairs generalizing index fields with
  | nil => exact Except.ok.inj hread ▸ h
  | cons pair rest ih =>
    obtain ⟨hpair, hrest⟩ := List.forall_mem_cons.mp hpairs
    rw [Object.readPairs] at hread
    split at hread
    · rename_i name v hm
      split at hread
      · exact ih (h.insert (hpair.members hm v (by simp)) _) hrest hread
      · cases hread
    · cases hread
    · cases hread

theorem readPayload (h : Proper v) (hread : Object.readPayload v = .ok payload) :
    Proper (.object payload) := by
  have hnil : Proper (.object []) := .object List.nodup_nil (by simp)
  unfold Object.readPayload at hread
  split at hread
  · unfold Object.readFields at hread
    split at hread
    · exact Except.ok.inj hread ▸ h
    · split at hread
      · rename_i items hm
        exact hnil.readPairs (h.members hm) hread
      · cases hread
  · exact Except.ok.inj hread ▸ hnil

end Value.Proper

theorem ofRecord_proper (hv : v.Proper) (h : Object.ofRecord v = .ok o) :
    (Value.object o.payload).Proper := by
  obtain ⟨fields, raw, i, payload, ds, oid, rfl, -, -, hpayload, rfl⟩ := ofRecord_made h
  exact (hv.get "payload").readPayload hpayload

-- ---------------------------------------------------------------------------
-- One fetch after another
-- ---------------------------------------------------------------------------

/-- A kind is fetched without a failure, and its records are these objects. -/
def Delivers (fetch : Kind → Except Fault (List Value)) (kind : Kind) (objects : List Object) : Prop :=
  ∃ records, fetch kind = .ok records ∧
    List.Forall₂ (fun record o => Object.ofRecord record = .ok o) records objects

/-- Every requested kind is there once with its objects, and no other kind. -/
structure Captured.Complete (fetch : Kind → Except Fault (List Value)) (kinds : List Kind)
    (captured : Captured) : Prop where
  nodup : (captured.map Prod.fst).Nodup
  mem : ∀ kind objects, (kind, objects) ∈ captured ↔ kind ∈ kinds ∧ Delivers fetch kind objects

variable {fetch : Kind → Except Fault (List Value)}

theorem Delivers.unique (h : Delivers fetch kind objects) (h' : Delivers fetch kind objects') :
    objects = objects' := by
  obtain ⟨records, hfetch, hall⟩ := h
  obtain ⟨records', hfetch', hall'⟩ := h'
  obtain rfl := Except.ok.inj (hfetch.symm.trans hfetch')
  exact Except.ok.inj ((mapM_ok.mpr hall).symm.trans (mapM_ok.mpr hall'))

theorem exists_delivers : (∃ objects, Delivers fetch kind objects) ↔ ∃ records,
    fetch kind = .ok records ∧ ∀ record ∈ records, ∃ o, Object.ofRecord record = .ok o := by
  unfold Delivers
  simp only [← mapM_ok, ← mapM_isOk]
  tauto

namespace Captured

section
variable {ε : Type} [Cause ε] {fetch : Kind → Except ε (List Value)}

def completions (fetch : Kind → Except ε (List Value)) (kinds : List Kind) : List (Completion ε) :=
  kinds.map fun kind => ⟨kind, fetch kind⟩

theorem ofCompletions_snoc (kinds : List Kind) (kind : Kind) :
    ofCompletions (completions fetch (kinds ++ [kind])) =
      ofCompletions (completions fetch kinds) >>= fun captured => captured.add ⟨kind, fetch kind⟩ := by
  unfold ofCompletions completions
  rw [List.map_append, List.foldlM_append]
  simp only [List.map_cons, List.map_nil, List.foldlM_cons, List.foldlM_nil, bind_pure]

/-- A capture stops for a cause exactly if some fetch or one of its records is the first
that gives it. -/
theorem ofCompletions_error_iff : ofCompletions (completions fetch kinds) = .error cause ↔
    ∃ before kind after, kinds = before ++ kind :: after ∧
      ∃ captured, ofCompletions (completions fetch before) = .ok captured ∧
        captured.add ⟨kind, fetch kind⟩ = .error cause := by
  induction kinds using List.reverseRecOn with
  | nil => simp [ofCompletions, completions, pure, Except.pure]
  | append_singleton kinds kind ih =>
    rw [ofCompletions_snoc, bind_error, ih]
    constructor
    · rintro (⟨before, known, after, rfl, hstop⟩ | hstop)
      · exact ⟨before, known, after ++ [kind], by simp, hstop⟩
      · exact ⟨kinds, kind, [], rfl, hstop⟩
    · rintro ⟨before, known, after, heq, hstop⟩
      cases after using List.reverseRecOn with
      | nil =>
        obtain ⟨rfl, hlast⟩ := List.append_inj' heq rfl
        obtain rfl := List.singleton_inj.mp hlast
        exact .inr hstop
      | append_singleton after last =>
        rw [← List.cons_append, ← List.append_assoc] at heq
        obtain ⟨rfl, -⟩ := List.append_inj' heq rfl
        exact .inl ⟨before, known, after, rfl, hstop⟩

end

theorem ofFetch_fault (kind : Kind) (cause : Fault) :
    Cause.ofFetch kind cause = Fault.captureFailed kind cause := rfl

theorem mapError_ofFault (x : Except Fault α) : x.mapError (Cause.ofFault : Fault → Fault) = x := by
  cases x <;> rfl

theorem add_ok {captured : Captured} : captured.add ⟨kind, fetch kind⟩ = .ok next ↔
    ∃ objects, Delivers fetch kind objects ∧ next = captured.insert kind objects := by
  unfold add Delivers
  cases fetch kind with
  | error cause => simp [throw, throwThe, MonadExceptOf.throw]
  | ok records =>
    simp only [mapError_ofFault, bind_ok, pure_ok, mapM_ok, Except.ok.injEq, exists_eq_left']
    simp only [eq_comm]

theorem add_error {captured : Captured} : captured.add ⟨kind, fetch kind⟩ = .error fault ↔
    (∃ cause, fetch kind = .error cause ∧ fault = .captureFailed kind cause) ∨
      ∃ records, fetch kind = .ok records ∧ records.mapM Object.ofRecord = .error fault := by
  unfold add
  cases fetch kind with
  | error cause => simp [throw, throwThe, MonadExceptOf.throw, ofFetch_fault, eq_comm]
  | ok records => simp [mapError_ofFault, bind_error, pure, Except.pure]

theorem add_uninterrupted (captured : Captured) (kind : Kind) :
    captured.add ⟨kind, (fetch kind).mapError Halt.fault⟩ =
      (captured.add ⟨kind, fetch kind⟩).mapError Halt.fault := by
  unfold add
  cases fetch kind with
  | error cause => rfl
  | ok records =>
    simp only [Except.mapError]
    cases records.mapM Object.ofRecord <;> rfl

theorem ofCompletions_uninterrupted (kinds : List Kind) :
    ofCompletions (completions (fun kind => (fetch kind).mapError Halt.fault) kinds) =
      (ofCompletions (completions fetch kinds)).mapError Halt.fault := by
  induction kinds using List.reverseRecOn with
  | nil => rfl
  | append_singleton kinds kind ih =>
    rw [ofCompletions_snoc, ofCompletions_snoc, ih, mapError_bind]
    exact congrArg _ (funext fun captured => add_uninterrupted captured kind)

theorem add_interruption {captured : Captured} {fetch : Kind → Except Halt (List Value)} :
    captured.add ⟨kind, fetch kind⟩ = .error (.interruption name) ↔
      fetch kind = .error (.interruption name) := by
  unfold add
  cases fetch kind with
  | error cause => cases cause <;> simp [throw, throwThe, MonadExceptOf.throw, Cause.ofFetch]
  | ok records =>
    cases hread : records.mapM Object.ofRecord <;>
      simp [hread, Except.mapError, Cause.ofFault, bind_error, pure, Except.pure]

theorem Complete.insert {captured : Captured} (h : captured.Complete fetch kinds)
    (hd : Delivers fetch kind objects) :
    (captured.insert kind objects).Complete fetch (kinds ++ [kind]) := by
  rw [insert_eq]
  refine ⟨nodup_setEntry h.nodup kind objects, fun known os => ?_⟩
  rw [mem_setEntry h.nodup, h.mem, List.mem_append, List.mem_singleton]
  constructor
  · rintro (⟨rfl, rfl⟩ | ⟨-, hm, hos⟩)
    · exact ⟨.inr rfl, hd⟩
    · exact ⟨.inl hm, hos⟩
  · rintro ⟨hm, hos⟩
    by_cases hk : known = kind
    · exact .inl ⟨hk, (hk ▸ hos).unique hd⟩
    · exact .inr ⟨hk, hm.resolve_right hk, hos⟩

theorem ofCompletions_complete (h : ofCompletions (completions fetch kinds) = .ok captured) :
    captured.Complete fetch kinds := by
  induction kinds using List.reverseRecOn generalizing captured with
  | nil =>
    obtain rfl := pure_ok.mp h
    exact ⟨List.nodup_nil, by simp⟩
  | append_singleton kinds kind ih =>
    rw [ofCompletions_snoc, bind_ok] at h
    obtain ⟨before, hbefore, h⟩ := h
    obtain ⟨objects, hd, rfl⟩ := add_ok.mp h
    exact (ih hbefore).insert hd

theorem ofCompletions_isOk : (∃ captured, ofCompletions (completions fetch kinds) = .ok captured) ↔
    ∀ kind ∈ kinds, ∃ objects, Delivers fetch kind objects := by
  induction kinds using List.reverseRecOn with
  | nil => exact ⟨by simp, fun _ => ⟨[], rfl⟩⟩
  | append_singleton kinds kind ih =>
    simp only [ofCompletions_snoc, bind_ok, add_ok, List.forall_mem_append, List.forall_mem_singleton,
      ← ih]
    constructor
    · rintro ⟨_, before, hbefore, objects, hd, -⟩
      exact ⟨⟨before, hbefore⟩, objects, hd⟩
    · rintro ⟨⟨before, hbefore⟩, objects, hd⟩
      exact ⟨_, before, hbefore, objects, hd, rfl⟩

theorem ofCompletions_error (hread : ∀ kind ∈ kinds, ∀ records, fetch kind = .ok records →
      ∀ record ∈ records, ∃ o, Object.ofRecord record = .ok o)
    (h : ofCompletions (completions fetch kinds) = .error fault) :
    ∃ kind ∈ kinds, ∃ cause, fetch kind = .error cause ∧ fault = .captureFailed kind cause := by
  obtain ⟨before, kind, after, rfl, captured, -, h⟩ := ofCompletions_error_iff.mp h
  rcases add_error.mp h with hfailed | ⟨records, hrecords, hmap⟩
  · exact ⟨kind, by simp, hfailed⟩
  · obtain ⟨objects, hobjects⟩ := mapM_isOk.mpr (hread kind (by simp) records hrecords)
    cases hobjects.symm.trans hmap

theorem Complete.perm {captured captured' : Captured} {kinds kinds' : List Kind}
    (h : captured.Complete fetch kinds) (h' : captured'.Complete fetch kinds')
    (hp : kinds.Perm kinds') : captured.Perm captured' := by
  refine (List.perm_ext_iff_of_nodup (h.nodup.of_map _) (h'.nodup.of_map _)).mpr ?_
  rintro ⟨kind, objects⟩
  rw [h.mem, h'.mem, hp.mem_iff]

theorem arrivals_toBatches (captured : Captured) :
    arrivals captured.toBatches = captured.flatMap (·.2) := by
  unfold arrivals toBatches
  rw [List.flatMap_map]

theorem Complete.record {captured : Captured} (h : captured.Complete fetch kinds)
    (ho : o ∈ arrivals captured.toBatches) : ∃ kind ∈ kinds, ∃ records, fetch kind = .ok records ∧
      ∃ record ∈ records, Object.ofRecord record = .ok o := by
  rw [arrivals_toBatches] at ho
  obtain ⟨⟨kind, objects⟩, hm, ho⟩ := List.mem_flatMap.mp ho
  obtain ⟨hk, records, hfetch, hall⟩ := (h.mem kind objects).mp hm
  obtain ⟨record, hrecord, hread⟩ := forall₂_mem_right hall ho
  exact ⟨kind, hk, records, hfetch, record, hrecord, hread⟩

end Captured

-- ---------------------------------------------------------------------------
-- Captures
-- ---------------------------------------------------------------------------

open Captured

theorem capture_eq {ε : Type} [Cause ε] {fetch : Kind → Except ε (List Value)} (hw : 1 ≤ workers)
    (completed : List Kind) :
    capture fetch completed workers = ofCompletions (completions fetch completed) := by
  unfold capture checkWorkers
  rw [if_neg (by omega)]
  rfl

/-- Where nothing is interrupted, it makes no difference that something could be. -/
theorem capture_uninterrupted (fetch : Kind → Except Fault (List Value)) (completed : List Kind)
    (workers : Int) : capture (fun kind => (fetch kind).mapError Halt.fault) completed workers =
      (capture fetch completed workers).mapError Halt.fault := by
  by_cases hw : 1 ≤ workers
  · rw [capture_eq hw, capture_eq hw, ofCompletions_uninterrupted]
  · unfold capture checkWorkers
    rw [if_pos (by omega)]
    rfl

/-- An interruption comes out of a capture as it is, and does so exactly if every fetch
that ended before it delivered. -/
theorem capture_interrupted {fetch : Kind → Except Halt (List Value)} (hw : 1 ≤ workers) :
    capture fetch completed workers = .error (.interruption name) ↔
      ∃ before kind after, completed = before ++ kind :: after ∧
        (∃ captured, capture fetch before workers = .ok captured) ∧
        fetch kind = .error (.interruption name) := by
  simp only [capture_eq hw, ofCompletions_error_iff, add_interruption, exists_and_right]

theorem planCaptured_ok [Sql.Parser] : (planCaptured fetch completed workers).result = .ok p ↔
    ∃ captured, capture fetch completed workers = .ok captured ∧
      (plan captured.toBatches []).result = .ok p := by
  unfold planCaptured
  simp only [Traced.bind_ok, Traced.lift_result]

theorem planCaptured_perm [Sql.Parser] (hw : 1 ≤ workers) (hperm : completed.Perm completed')
    (hproper : ∀ kind ∈ completed, ∀ records, fetch kind = .ok records → ∀ record ∈ records,
      record.Proper)
    (hp : (planCaptured fetch completed workers).result = .ok p) :
    ∃ q, (planCaptured fetch completed' workers).result = .ok q ∧ LikePlanned p q ∧
      p.graph.diagnostics.map Diagnostic.place = q.graph.diagnostics.map Diagnostic.place := by
  obtain ⟨captured, hc, hp⟩ := planCaptured_ok.mp hp
  rw [capture_eq hw] at hc
  have hcomplete := ofCompletions_complete hc
  obtain ⟨captured', hc'⟩ : ∃ captured', ofCompletions (completions fetch completed') = .ok captured' :=
    ofCompletions_isOk.mpr fun kind hk =>
      ofCompletions_isOk.mp ⟨captured, hc⟩ kind (hperm.mem_iff.mpr hk)
  have harrivals : (arrivals captured.toBatches).Perm (arrivals captured'.toBatches) := by
    rw [arrivals_toBatches, arrivals_toBatches]
    exact (hcomplete.perm (ofCompletions_complete hc') hperm).flatMap_right _
  have hpartly : PartlyComparable (arrivals captured.toBatches) := by
    refine .of_comparable (.of_proper fun o ho => ?_)
    obtain ⟨kind, hk, records, hfetch, record, hrecord, hread⟩ := hcomplete.record ho
    exact ofRecord_proper (hproper kind hk records hfetch record hrecord) hread
  have hcanon : ∀ o ∈ arrivals captured.toBatches, o.Canonical := by
    intro o ho
    obtain ⟨kind, hk, records, hfetch, record, hrecord, hread⟩ := hcomplete.record ho
    exact ofRecord_canonical hread
  obtain ⟨q, hq, hlike, hdiagnostics⟩ := plan_perm hpartly harrivals hp
  exact ⟨q, planCaptured_ok.mpr ⟨captured', (capture_eq hw _).trans hc', hq⟩, hlike,
    hdiagnostics hcanon⟩

/-- Whichever order the fetches come to their ends in, a capture succeeds exactly when
no fetch fails and every record can be read, and then it holds the objects of every
requested kind in the order of the reader, and nothing else. If all that fails is
fetches, it fails with one of their kinds. Two orders give the same plan. -/
theorem capture_any_order [Sql.Parser] (fetch : Kind → Except Fault (List Value)) (kinds : List Kind)
    (workers : Int) (hw : 1 ≤ workers) :
    (∀ completed, completed.Perm kinds →
      ((∃ captured, capture fetch completed workers = .ok captured) ↔
        ∀ kind ∈ kinds, ∃ records, fetch kind = .ok records ∧
          ∀ record ∈ records, ∃ o, Object.ofRecord record = .ok o) ∧
      (∀ captured, capture fetch completed workers = .ok captured →
        captured.Complete fetch kinds) ∧
      ((∀ kind ∈ kinds, ∀ records, fetch kind = .ok records →
          ∀ record ∈ records, ∃ o, Object.ofRecord record = .ok o) →
        (∃ kind ∈ kinds, ∃ cause, fetch kind = .error cause) →
        ∃ kind ∈ kinds, ∃ cause, fetch kind = .error cause ∧
          capture fetch completed workers = .error (.captureFailed kind cause))) ∧
    ∀ completed completed', completed.Perm kinds → completed'.Perm kinds →
      (∀ captured captured', capture fetch completed workers = .ok captured →
        capture fetch completed' workers = .ok captured' → captured.Perm captured') ∧
      ((∀ kind ∈ kinds, ∀ records, fetch kind = .ok records → ∀ record ∈ records, record.Proper) →
        ∀ p, (planCaptured fetch completed workers).result = .ok p →
          ∃ q, (planCaptured fetch completed' workers).result = .ok q ∧ LikePlanned p q ∧
            p.graph.diagnostics.map Diagnostic.place = q.graph.diagnostics.map Diagnostic.place) := by
  simp only [capture_eq hw, ← exists_delivers]
  refine ⟨fun completed hperm => ⟨?_, ?_, ?_⟩, fun completed completed' hperm hperm' => ⟨?_, ?_⟩⟩
  · rw [ofCompletions_isOk]
    simp only [hperm.mem_iff]
  · intro captured hc
    have hcomplete := ofCompletions_complete hc
    exact ⟨hcomplete.nodup, fun kind objects => by rw [hcomplete.mem, hperm.mem_iff]⟩
  · rintro hread ⟨failed, hfailed, cause, hcause⟩
    cases hr : ofCompletions (completions fetch completed) with
    | ok captured =>
      obtain ⟨objects, records, hrecords, -⟩ :=
        ofCompletions_isOk.mp ⟨captured, hr⟩ failed (hperm.mem_iff.mpr hfailed)
      cases hcause.symm.trans hrecords
    | error fault =>
      obtain ⟨kind, hk, cause, hcause, rfl⟩ :=
        ofCompletions_error (fun kind hk => hread kind (hperm.mem_iff.mp hk)) hr
      exact ⟨kind, hperm.mem_iff.mp hk, cause, hcause, rfl⟩
  · intro captured captured' hc hc'
    exact (ofCompletions_complete hc).perm (ofCompletions_complete hc') (hperm.trans hperm'.symm)
  · intro hproper p hp
    exact planCaptured_perm hw (hperm.trans hperm'.symm)
      (fun kind hk => hproper kind (hperm.mem_iff.mp hk)) hp

def shopIdentity (kind name : String) : Value :=
  .object [("catalog_kind", .text kind), ("schema", .text "shop"), ("local_name", .text name)]

def shopRecord (kind name target : String) (payload : Fields) : Value :=
  .object [("identity", shopIdentity kind name), ("payload", .object payload),
    ("dependencies", .list [shopIdentity "table" target])]

def shopFetch : Kind → Except Fault (List Value)
  | .table => .ok [shopRecord "table" "orders" "customers" [("rows", .float (.nan 0))],
      shopRecord "table" "customers" "orders" []]
  | .view => .ok [shopRecord "view" "totals" "orders" []]
  | _ => .ok []

theorem shopRecord_proper {payload : Fields} (h : (Value.object payload).Proper) :
    (shopRecord kind name target payload).Proper := by
  have hidentity : ∀ kind name, (shopIdentity kind name).Proper := fun kind name =>
    .object (by simp) (by simp [Value.Proper.text])
  refine .object (by simp) ?_
  simp only [List.forall_mem_cons, List.not_mem_nil, false_imp_iff, implies_true, and_true]
  exact ⟨hidentity kind name, h, .list (by simpa using hidentity "table" target)⟩

theorem capture_any_order_shop : ∃ p q,
    (planCaptured shopFetch [.table, .view] 4).result = .ok p ∧
    (planCaptured shopFetch [.view, .table] 4).result = .ok q ∧ LikePlanned p q := by
  have hrows : (Value.object [("rows", .float (.nan 0))]).Proper :=
    .object (by simp) (by simpa using .number rfl trivial)
  have hnil : (Value.object []).Proper := .object List.nodup_nil (by simp)
  have hproper : ∀ kind ∈ [Kind.table, .view], ∀ records, shopFetch kind = .ok records →
      ∀ record ∈ records, record.Proper := by
    simp only [List.forall_mem_cons, shopFetch, Except.ok.injEq, forall_eq', List.not_mem_nil,
      false_imp_iff, implies_true, and_true]
    exact ⟨⟨shopRecord_proper hrows, shopRecord_proper hnil⟩, shopRecord_proper hnil⟩
  obtain ⟨p, hp⟩ : ∃ p, (planCaptured shopFetch [.table, .view] 4).result = .ok p :=
    isOk_iff.mp (by decide +kernel)
  have horders := (capture_any_order shopFetch [.table, .view] 4 (by decide)).2 _ _ (.refl _)
    (.swap Kind.table .view [])
  obtain ⟨q, hq, hlike, -⟩ := horders.2 hproper p hp
  exact ⟨p, q, hp, hq, hlike⟩

end CatalogPlan
