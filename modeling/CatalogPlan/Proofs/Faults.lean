import CatalogPlan.Planning
import CatalogPlan.Proofs.Graph.References
import CatalogPlan.Proofs.Sql.Walk

/-!
# The faults of a planning run

Each part of a run fails in few ways. Searching the bodies of routines and
building a graph have their own faults, and neither is one of ordering.
-/

namespace CatalogPlan

namespace Fault

def inBodies : Fault → Bool
  | .badName _ | .wrongShape .. | .bareListMember | .namelessCall | .unsortableCalls => true
  | _ => false

def inReferences : Fault → Bool
  | .malformed .. | .incomplete .. | .badName _ | .wrongShape .. | .infiniteOid => true
  | _ => false

def isConflict : Fault → Bool
  | .conflict .. => true
  | _ => false

def inObjects : Fault → Bool
  | .malformed .. | .conflict .. => true
  | _ => false

def inSnapshot : Fault → Bool
  | .unknownKind _ | .malformed .. | .conflict .. | .incomplete .. | .badName _ | .wrongShape ..
  | .infiniteOid => true
  | _ => false

theorem inSnapshot_of_inReferences {fault : Fault} (h : fault.inReferences = true) :
    fault.inSnapshot = true := by
  cases fault <;> first | rfl | cases h

theorem inSnapshot_of_inObjects {fault : Fault} (h : fault.inObjects = true) :
    fault.inSnapshot = true := by
  cases fault <;> first | rfl | cases h

theorem inObjects_of_isConflict {fault : Fault} (h : fault.isConflict = true) :
    fault.inObjects = true := by
  cases fault <;> first | rfl | cases h

end Fault

/-- A step that fails only with certain faults. -/
def FailsOnly (allowed : Fault → Bool) (x : Except Fault α) : Prop :=
  ∀ fault, x = .error fault → allowed fault = true

namespace FailsOnly

variable {allowed : Fault → Bool} {x : Except Fault α} {f : α → Except Fault β}

theorem ok (a : α) : FailsOnly allowed (.ok a) :=
  fun _ h => nomatch h

theorem pure (a : α) : FailsOnly allowed (Pure.pure a : Except Fault α) :=
  ok a

theorem error (h : allowed fault = true) : FailsOnly allowed (.error fault : Except Fault α) := by
  intro fault' heq
  rwa [← Except.error.inj heq]

theorem mono {more : Fault → Bool} (hx : FailsOnly allowed x)
    (h : ∀ {fault}, allowed fault = true → more fault = true) : FailsOnly more x :=
  fun fault heq => h (hx fault heq)

theorem bind (hx : FailsOnly allowed x) (hf : ∀ a, FailsOnly allowed (f a)) :
    FailsOnly allowed (x >>= f) := by
  intro fault h
  rcases bind_error.mp h with h | ⟨a, -, h⟩
  · exact hx fault h
  · exact hf a fault h

theorem map {f : α → β} (hx : FailsOnly allowed x) : FailsOnly allowed (x.map f) := by
  cases x with
  | error fault => exact error (hx fault rfl)
  | ok a => exact ok (f a)

theorem mapM {xs : List α} (hf : ∀ a ∈ xs, FailsOnly allowed (f a)) :
    FailsOnly allowed (xs.mapM f) := by
  induction xs with
  | nil => exact pure []
  | cons a rest ih =>
    rw [List.mapM_cons]
    exact (hf a (by simp)).bind fun _ =>
      (ih fun b hb => hf b (List.mem_cons_of_mem _ hb)).bind fun _ => pure _

theorem foldlM {f : β → α → Except Fault β} (hf : ∀ b a, FailsOnly allowed (f b a)) (b : β)
    (xs : List α) : FailsOnly allowed (xs.foldlM f b) := by
  induction xs generalizing b with
  | nil => exact pure b
  | cons a rest ih =>
    rw [List.foldlM_cons]
    exact (hf b a).bind ih

end FailsOnly

-- ---------------------------------------------------------------------------
-- Bodies of routines
-- ---------------------------------------------------------------------------

theorem Sql.references_fault [Sql.Parser] (sql : String) :
    FailsOnly Fault.inBodies (references sql) := by
  intro fault h
  rw [(((references_finds sql).error_iff fault).mp h).1]
  rfl

namespace Routine

open FailsOnly

theorem lookUp_fault (table : NameTable) (schemas : List String) (w : Sql.WrittenName) :
    FailsOnly Fault.inBodies (lookUp table schemas w).result := by
  have hnameless : ∀ path, FailsOnly Fault.inBodies (namelessCall path) := by
    intro path
    unfold namelessCall
    split
    · exact ok _
    · split
      · exact error rfl
      · exact ok _
  unfold lookUp
  simp only
  split
  · split
    · exact ok _
    · exact ok _
  · rw [Traced.result_bind]
    refine (hnameless _).bind fun readable => ?_
    cases readable <;> exact ok _

theorem bodyReferences_fault [Sql.Parser] (known : Known) (schemas : List String) (sql : String) :
    FailsOnly Fault.inBodies (bodyReferences known schemas sql).result := by
  unfold bodyReferences
  rw [Traced.result_bind]
  refine (Sql.references_fault sql).bind fun found => ?_
  rw [Traced.result_bind, Traced.mapM_result]
  refine (FailsOnly.mapM fun w _ => ?_).bind fun relations => ?_
  · rw [Traced.result_bind]
    refine (lookUp_fault known.relations schemas w).bind fun objects => ?_
    split <;> exact ok _
  · split
    · exact error rfl
    · rw [Traced.result_bind, Traced.mapM_result]
      exact (FailsOnly.mapM fun w _ => lookUp_fault known.routines schemas w).bind fun _ => ok _

theorem augment_fault [Sql.Parser] (known : Known) (o : Object) :
    FailsOnly Fault.inBodies (augment known o).result := by
  have hschemas : FailsOnly Fault.inBodies (bodySchemas o.identity) := by
    unfold bodySchemas
    split
    · exact ok _
    · exact ok _
    · exact error rfl
  have hadd : ∀ found, FailsOnly Fault.inBodies (addBodyReferences o found).result := by
    intro found
    unfold addBodyReferences
    simp only
    split <;> exact ok _
  unfold augment
  split
  · exact ok _
  · rw [Traced.result_bind]
    refine hschemas.bind fun schemas => ?_
    split
    · rw [Traced.result_bind]
      exact (bodyReferences_fault known schemas _).bind hadd
    · exact error rfl

theorem augmentAll_fault [Sql.Parser] (batches : Batches) :
    FailsOnly Fault.inBodies (augmentAll batches).result := by
  unfold augmentAll
  simp only [Traced.mapM_result, Traced.result_bind]
  exact FailsOnly.mapM fun _ _ => (FailsOnly.mapM fun o _ => augment_fault _ o).bind fun _ => ok _

end Routine

-- ---------------------------------------------------------------------------
-- Snapshots
-- ---------------------------------------------------------------------------

open FailsOnly in
theorem normalize_fault (raw : RawIdentity) : FailsOnly Fault.inReferences raw.normalize := by
  have hkind : FailsOnly Fault.inReferences raw.kind := by
    unfold RawIdentity.kind
    split
    · exact ok _
    · split
      · exact ok _
      · exact error rfl
  have hname : ∀ v, FailsOnly Fault.inReferences (readName v) := by
    intro v
    unfold readName
    split
    · exact ok _
    · split
      · exact error rfl
      · exact ok _
  have hnamed : ∀ kind names, FailsOnly Fault.inReferences (raw.named kind names) := by
    intro kind names
    unfold RawIdentity.named
    split
    · exact ok _
    · exact error rfl
  have hoid : FailsOnly Fault.inReferences raw.readOid := by
    unfold RawIdentity.readOid readOid?
    refine FailsOnly.bind ?_ fun n => ?_
    · split <;> first | exact ok _ | exact error rfl
    · cases n with
      | none => exact error rfl
      | some n => exact ok _
  unfold RawIdentity.normalize
  refine hkind.bind fun kind => (hname _).bind fun schema => (hname _).bind fun localName => ?_
  split
  · exact hnamed _ _
  · split
    · exact hnamed _ _
    · split
      · exact error rfl
      · exact hoid.bind fun _ => ok _

/-- A class has to be found by the table that carries a constraint for a reference of a
foreign key to a table alone. -/
theorem defaultEdgeClass_error {o : Object} {target : Identity} :
    defaultEdgeClass o target = .error fault ↔ o.kind = .constraint ∧ target.kind = .table ∧
      isForeignKey o.payload = true ∧ ownerTable o = .error fault := by
  unfold defaultEdgeClass
  split
  · rename_i hkey
    obtain ⟨hkind, htarget, hforeign⟩ := hkey
    simp only [hkind, htarget, hforeign, true_and, bind_error]
    refine or_iff_left ?_
    rintro ⟨owner, -, h⟩
    split at h <;> cases h
  · rename_i hkey
    constructor
    · intro h
      cases h
    · rintro ⟨hkind, htarget, hforeign, -⟩
      exact absurd ⟨hkind, htarget, hforeign⟩ hkey

open FailsOnly in
theorem defaultEdgeClass_fault (o : Object) (target : Identity) :
    FailsOnly Fault.inReferences (defaultEdgeClass o target) := by
  have howner : FailsOnly Fault.inReferences (ownerTable o) := by
    unfold ownerTable
    split
    · exact normalize_fault _
    · exact normalize_fault _
    · split
      · exact ok _
      · exact error rfl
  exact fun fault h => howner fault (defaultEdgeClass_error.mp h).2.2.2

open FailsOnly in
theorem outcome_fault (os : List Object) (failed : List Kind) (r : Identity × Dependency) :
    FailsOnly Fault.inReferences (outcome os failed r) := by
  have hclass : ∀ t, FailsOnly Fault.inReferences (edgeClassOf os r.1 r.2 t) := by
    intro t
    unfold edgeClassOf
    split
    · exact ok _
    · exact defaultEdgeClass_fault _ t
    · exact ok _
  unfold outcome
  split
  · split
    · exact ok _
    · exact error rfl
  · split
    · exact ok _
    · exact (hclass _).bind fun _ => ok _

open FailsOnly in
theorem addNode_fault (objects : List Object) (o : Object) :
    FailsOnly Fault.isConflict (Collection.addNode objects o) := by
  unfold Collection.addNode
  split
  · exact ok _
  · split
    · exact ok _
    · exact error rfl

open FailsOnly in
theorem addOid_fault (oids : List ((Catalog × Int) × Identity)) (i : Identity) (oid : Int) :
    FailsOnly Fault.isConflict (Collection.addOid oids i oid) := by
  unfold Collection.addOid
  split
  · exact ok _
  · split
    · exact ok _
    · exact error rfl

open FailsOnly in
theorem add_fault (c : Collection) (hnamed : o.identity.isNumeric = false) :
    FailsOnly Fault.isConflict (c.add o) := by
  unfold Collection.add
  rw [hnamed]
  refine (addNode_fault _ o).bind fun _ => ?_
  cases o.oid with
  | none => exact (ok _).bind fun _ => ok _
  | some oid => exact (addOid_fault _ _ oid).bind fun _ => ok _

open FailsOnly in
theorem collection_fault (os : List Object) : FailsOnly Fault.inObjects (Collection.ofObjects os) := by
  refine FailsOnly.foldlM (fun c o => ?_) _ os
  cases hnamed : o.identity.isNumeric with
  | true =>
    unfold Collection.add
    rw [hnamed]
    exact error rfl
  | false => exact (add_fault c hnamed).mono Fault.inObjects_of_isConflict

open FailsOnly in
theorem build_fault (batches : Batches) (failedKinds : List Value) :
    FailsOnly Fault.inSnapshot (Graph.build batches failedKinds).result := by
  unfold Graph.build
  simp only [Traced.result_bind, Traced.lift_result]
  refine FailsOnly.bind ?_ fun failed => ?_
  · refine FailsOnly.mapM fun v _ => ?_
    split
    · exact ok _
    · exact error rfl
  · intro fault h
    rcases bind_error.mp h with h | ⟨c, hc, h⟩
    · exact Fault.inSnapshot_of_inObjects (collection_fault _ fault h)
    · rw [ofCollection_result (Collection.ofObjects_ok hc)] at h
      exact ((FailsOnly.mapM fun r _ => outcome_fault _ _ r).map.mono Fault.inSnapshot_of_inReferences) fault h

end CatalogPlan
