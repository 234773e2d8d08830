import CatalogPlan.Classification
import CatalogPlan.Proofs.Event
import CatalogPlan.Routine.Augment

/-!
# Equal payloads

Two payloads are equal when each is equal to the other. What a run reads from
payloads does not tell equal ones apart: the class of a dependency, the table
that carries a constraint, and the body of a routine.
-/

namespace CatalogPlan

-- ---------------------------------------------------------------------------
-- Numbers
-- ---------------------------------------------------------------------------

namespace Binary64

theorem twos_pos (n : Nat) : 0 < twos n :=
  Nat.pow_pos (by decide)

theorem isZero_of_eqInt {x : Binary64} (h : x.eqInt n = true) : x.isZero = (n == 0) := by
  cases x with
  | finite neg m q =>
    simp only [eqInt, Bool.and_eq_true, beq_iff_eq] at h
    have hq := twos_pos q.toNat
    have hq' := twos_pos (-q).toNat
    rw [Bool.eq_iff_iff]
    simp only [isZero, beq_iff_eq]
    constructor
    · rintro rfl
      rw [Nat.zero_mul] at h
      rcases Nat.mul_eq_zero.mp h.1.symm with hn | hn
      · exact Int.natAbs_eq_zero.mp hn
      · omega
    · rintro rfl
      rw [Int.natAbs_zero, Nat.zero_mul] at h
      exact (Nat.mul_eq_zero.mp h.1).resolve_right (by omega)
  | infinite neg => simp [eqInt] at h
  | nan object => simp [eqInt] at h

theorem isZero_of_eqFloat {x y : Binary64} (h : x.eqFloat y = true) : x.isZero = y.isZero := by
  simp only [eqFloat, Bool.or_eq_true, Bool.and_eq_true, beq_iff_eq] at h
  rcases h with rfl | ⟨hx, hy⟩
  · rfl
  · rw [hx, hy]

end Binary64

-- ---------------------------------------------------------------------------
-- Values
-- ---------------------------------------------------------------------------

namespace Value

def Alike (a b : Value) : Prop :=
  a.same b = true ∧ b.same a = true

theorem Alike.symm (h : Alike a b) : Alike b a :=
  ⟨h.2, h.1⟩

theorem alike_null : Alike .null .null :=
  ⟨rfl, rfl⟩

theorem alike_text_iff : Alike (.text s) v ↔ v = .text s := by
  constructor
  · rintro ⟨h, -⟩
    cases v <;> simp [same] at h
    rw [h]
  · rintro rfl
    simp [Alike, same]

theorem Alike.exists_object (h : Alike (.object p) v) : ∃ q, v = .object q := by
  cases v <;> simp [Alike, same, number?] at h ⊢

/-- Equal values are both objects, one text, or neither. -/
theorem Alike.shape (h : Alike v w) :
    (∃ p q, v = .object p ∧ w = .object q ∧ Alike (.object p) (.object q)) ∨
      (∃ s, v = .text s ∧ w = .text s) ∨
      ((∀ p, v ≠ .object p) ∧ (∀ s, v ≠ .text s)) ∧ (∀ p, w ≠ .object p) ∧ ∀ s, w ≠ .text s := by
  cases v with
  | object p =>
    obtain ⟨q, rfl⟩ := h.exists_object
    exact .inl ⟨p, q, rfl, rfl, h⟩
  | text s => exact .inr (.inl ⟨s, rfl, alike_text_iff.mp h⟩)
  | null | bool | int | float | list =>
    refine .inr (.inr ⟨⟨by simp, by simp⟩, ?_, ?_⟩)
    · rintro q rfl
      obtain ⟨p, hp⟩ := h.symm.exists_object
      cases hp
    · rintro s rfl
      cases alike_text_iff.mp h.symm

theorem sameFields_iff {p q : Fields} : sameFields p q = true ↔
    ∀ f ∈ p, ∃ b, q.get? f.1 = some b ∧ f.2.same b = true := by
  induction p with
  | nil => simp [sameFields]
  | cons f rest ih =>
    rw [sameFields, Bool.and_eq_true, ih, List.forall_mem_cons]
    refine and_congr_left' ?_
    cases q.get? f.1 <;> simp

theorem alike_object_iff {p q : Fields} : Alike (.object p) (.object q) ↔
    p.length = q.length ∧ sameFields p q = true ∧ sameFields q p = true := by
  simp only [Alike, same, Bool.and_eq_true, beq_iff_eq]
  constructor
  · rintro ⟨⟨hl, hpq⟩, -, hqp⟩
    exact ⟨hl, hpq, hqp⟩
  · rintro ⟨hl, hpq, hqp⟩
    exact ⟨⟨hl, hpq⟩, hl.symm, hqp⟩

theorem get?_mem {p : Fields} (h : p.get? name = some a) : (name, a) ∈ p := by
  unfold Fields.get? at h
  induction p with
  | nil => simp at h
  | cons f rest ih =>
    rw [List.lookup_cons] at h
    split at h
    · rename_i hname
      obtain rfl := Option.some.inj h
      rw [beq_iff_eq.mp hname]
      exact List.mem_cons_self
    · exact List.mem_cons_of_mem _ (ih h)

theorem Alike.get {p q : Fields} (h : Alike (.object p) (.object q)) (name : String) :
    Alike (p.get name) (q.get name) := by
  obtain ⟨-, hpq, hqp⟩ := alike_object_iff.mp h
  have hforth := sameFields_iff.mp hpq
  have hback := sameFields_iff.mp hqp
  unfold Fields.get
  cases hp : p.get? name with
  | none =>
    cases hq : q.get? name with
    | none => exact alike_null
    | some b =>
      obtain ⟨a, ha, -⟩ := hback _ (get?_mem hq)
      rw [hp] at ha
      cases ha
  | some a =>
    obtain ⟨b, hb, hab⟩ := hforth _ (get?_mem hp)
    obtain ⟨a', ha', hba⟩ := hback _ (get?_mem hb)
    obtain rfl := Option.some.inj (hp.symm.trans ha')
    simp only at hb
    rw [hb]
    exact ⟨hab, hba⟩

def isText (test : String → Bool) : Value → Bool
  | .text s => test s
  | _ => false

theorem Alike.isText (h : Alike v w) (test : String → Bool) : v.isText test = w.isText test := by
  have hother : ∀ v : Value, (∀ s, v ≠ .text s) → v.isText test = false := by
    intro v hv
    unfold Value.isText
    split
    · exact absurd rfl (hv _)
    · rfl
  rcases h.shape with ⟨p, q, rfl, rfl, -⟩ | ⟨s, rfl, rfl⟩ | ⟨hv, hw⟩
  · rfl
  · rfl
  · rw [hother v hv.2, hother w hw.2]

def numberTruth : Int ⊕ Binary64 → Bool
  | .inl n => n != 0
  | .inr x => !x.isZero

theorem isTruthy_of_number {v : Value} (h : v.number? = some x) : v.isTruthy = numberTruth x := by
  cases v with
  | bool b =>
    obtain rfl := Option.some.inj h
    cases b <;> rfl
  | int n =>
    obtain rfl := Option.some.inj h
    rfl
  | float y =>
    obtain rfl := Option.some.inj h
    rfl
  | null | text | list | object => cases h

theorem numberTruth_congr (h : sameNumber x y = true) : numberTruth x = numberTruth y := by
  cases x with
  | inl m =>
    cases y with
    | inl n => rw [show m = n by simpa [sameNumber] using h]
    | inr y => rw [numberTruth, numberTruth, Binary64.isZero_of_eqInt h, bne]
  | inr x =>
    cases y with
    | inl n => rw [numberTruth, numberTruth, Binary64.isZero_of_eqInt h, bne]
    | inr y => rw [numberTruth, numberTruth, Binary64.isZero_of_eqFloat h]

theorem same_number {a b : Value} (hx : a.number? = some x) (h : a.same b = true) :
    ∃ y, b.number? = some y ∧ sameNumber x y = true := by
  have hsame : (a.number?.bind fun x => b.number?.map (sameNumber x)).getD false = true := by
    cases a with
    | bool | int | float => exact h
    | null | text | list | object => cases hx
  rw [hx] at hsame
  cases hy : b.number? with
  | none => simp [hy] at hsame
  | some y => exact ⟨y, rfl, by simpa [hy] using hsame⟩

theorem isTruthy_congr {a b : Value} (h : a.same b = true) : a.isTruthy = b.isTruthy := by
  cases hx : a.number? with
  | some x =>
    obtain ⟨y, hy, hxy⟩ := same_number hx h
    rw [isTruthy_of_number hx, isTruthy_of_number hy, numberTruth_congr hxy]
  | none =>
    cases a with
    | bool | int | float => cases hx
    | null => cases b <;> simp [same] at h ⊢
    | text s =>
      cases b <;> simp [same] at h
      rw [h]
    | list as =>
      cases b <;> simp [same] at h
      rename_i bs
      cases as <;> cases bs <;> simp_all [sameItems, isTruthy]
    | object as =>
      cases b <;> simp [same] at h
      rename_i bs
      cases as <;> cases bs <;> simp_all [isTruthy]

end Value

-- ---------------------------------------------------------------------------
-- Objects
-- ---------------------------------------------------------------------------

structure Object.Alike (o k : Object) : Prop where
  identity : o.identity = k.identity
  payload : Value.Alike (.object o.payload) (.object k.payload)

theorem readName_alike (h : Value.Alike v w) : (readName v).toOption = (readName w).toOption := by
  have hother : ∀ {v w}, Value.Alike v w → (∀ s, v ≠ .text s) →
      readName v = if v.isTruthy then .error (.wrongShape .text v) else .ok "" := by
    intro v w _ hv
    cases v <;> first | rfl | exact absurd rfl (hv _)
  by_cases hv : ∃ s, v = .text s
  · obtain ⟨s, rfl⟩ := hv
    rw [Value.alike_text_iff.mp h]
  · have hw : ∀ s, w ≠ .text s := by
      rintro s rfl
      exact hv ⟨s, Value.alike_text_iff.mp h.symm⟩
    rw [hother h fun s hs => hv ⟨s, hs⟩, hother h.symm hw, Value.isTruthy_congr h.1]
    split <;> rfl

theorem normalize_alike {kind : Kind} (hs : Value.Alike schema schema')
    (hl : Value.Alike localName localName') :
    (RawIdentity.normalize ⟨.known kind, .null, schema, localName⟩).toOption =
      (RawIdentity.normalize ⟨.known kind, .null, schema', localName'⟩).toOption := by
  have hnamed : ∀ (r r' : RawIdentity) k names,
      (r.named k names).toOption = (r'.named k names).toOption := by
    intro r r' k names
    unfold RawIdentity.named
    cases Name.normalize names <;> rfl
  unfold RawIdentity.normalize
  simp only [toOption_bind, readName_alike hs, readName_alike hl]
  refine congrArg₂ Option.bind rfl (funext fun k => congrArg₂ Option.bind rfl
    (funext fun s => congrArg₂ Option.bind rfl (funext fun l => ?_)))
  split
  · exact hnamed ..
  · split
    · exact hnamed ..
    · rfl

theorem ownerTable_alike {o k : Object} (h : o.Alike k) :
    (ownerTable o).toOption = (ownerTable k).toOption := by
  rcases (h.payload.get "owner_table_name").shape with ⟨p, q, hp, hq, hpq⟩ | ⟨s, hp, hq⟩ | ⟨ho, hk⟩
  · simp only [ownerTable, hp, hq]
    exact normalize_alike (hpq.get _) (hpq.get _)
  · simp only [ownerTable, hp, hq]
  · unfold ownerTable
    rw [h.identity]
    split
    · exact absurd ‹_› (ho.1 _)
    · exact absurd ‹_› (ho.2 _)
    · symm
      split
      · exact absurd ‹_› (hk.1 _)
      · exact absurd ‹_› (hk.2 _)
      · rfl

theorem isForeignKey_alike {p q : Fields} (h : Value.Alike (.object p) (.object q)) :
    isForeignKey p = isForeignKey q := by
  unfold isForeignKey
  refine Value.Alike.isText ?_ fun s => foldTypeName s == "foreignkey" || foldTypeName s == "f"
  have hget := h.get "constraint_type"
  rcases hget.shape with ⟨a, b, ha, hb, hab⟩ | ⟨s, ha, hb⟩ | ⟨ha, hb⟩
  · simp only [ha, hb]
    exact hab.get "type"
  · simp only [ha, hb]
    exact Value.alike_text_iff.mpr rfl
  · split
    · exact absurd ‹_› (ha.1 _)
    · split
      · exact absurd ‹_› (hb.1 _)
      · exact hget

theorem defaultEdgeClass_alike {o k : Object} (h : o.Alike k) (target : Identity) :
    (defaultEdgeClass o target).toOption = (defaultEdgeClass k target).toOption := by
  have hkind : o.kind = k.kind := congrArg Identity.kind h.identity
  unfold defaultEdgeClass
  rw [hkind, isForeignKey_alike h.payload]
  split
  · rw [toOption_bind, toOption_bind, ownerTable_alike h]
  · rfl

/-- Two objects with one identity, and with one payload or equal ones: what arrives once
is never compared with itself. -/
structure Object.Like (o k : Object) : Prop where
  identity : o.identity = k.identity
  payload : o.payload = k.payload ∨ Value.Alike (.object o.payload) (.object k.payload)

theorem Object.Like.symm {o k : Object} (h : o.Like k) : k.Like o :=
  ⟨h.identity.symm, h.payload.imp Eq.symm Value.Alike.symm⟩

theorem Object.Alike.like {o k : Object} (h : o.Alike k) : o.Like k :=
  ⟨h.identity, .inr h.payload⟩

theorem defaultEdgeClass_like {o k : Object} (h : o.Like k) (target : Identity) :
    (defaultEdgeClass o target).toOption = (defaultEdgeClass k target).toOption := by
  rcases h.payload with heq | ha
  · unfold defaultEdgeClass ownerTable Object.kind
    rw [h.identity, heq]
  · exact defaultEdgeClass_alike ⟨h.identity, ha⟩ target

namespace Routine

theorem searchedBody?_alike {o k : Object} (h : o.Alike k) :
    (searchedBody? o = none ∧ searchedBody? k = none) ∨
      ∃ v w, searchedBody? o = some v ∧ searchedBody? k = some w ∧ Value.Alike v w := by
  have hbody : ∀ o : Object, searchedBody? o =
      if o.kind == .routine && (o.payload.get "language").isText (· == "sql") &&
        !(o.payload.get "is_pre_parsed").isTruthy && (o.payload.get "source").isTruthy then
        some (o.payload.get "source") else none := fun _ => rfl
  have hsource := h.payload.get "source"
  have hkind : o.kind = k.kind := congrArg Identity.kind h.identity
  rw [hbody, hbody, hkind, (h.payload.get "language").isText, Value.isTruthy_congr hsource.1,
    Value.isTruthy_congr (h.payload.get "is_pre_parsed").1]
  split
  · exact .inr ⟨_, _, rfl, rfl, hsource⟩
  · exact .inl ⟨rfl, rfl⟩

/-- Objects that are read alike both have a body to be searched or both have none, and
bodies that are texts are one. -/
theorem searchedBody?_like {o k : Object} (h : o.Like k) :
    (searchedBody? o = none → searchedBody? k = none) ∧
      ∀ sql, searchedBody? o = some (.text sql) → searchedBody? k = some (.text sql) := by
  rcases h.payload with heq | ha
  · rw [show searchedBody? k = searchedBody? o by
      unfold searchedBody? Object.kind
      rw [h.identity, heq]]
    exact ⟨id, fun _ => id⟩
  · rcases searchedBody?_alike ⟨h.identity, ha⟩ with ⟨ho, hk⟩ | ⟨v, w, ho, hk, hvw⟩
    · simp [ho, hk]
    · refine ⟨fun hnone => by simp [ho] at hnone, fun sql hsql => ?_⟩
      obtain rfl := Option.some.inj (ho.symm.trans hsql)
      rw [hk, Value.alike_text_iff.mp hvw]

end Routine

end CatalogPlan
