import CatalogPlan.Proofs.Arrival.Snapshot
import CatalogPlan.Proofs.Faults

/-!
# Snapshots that contradict themselves

An arrival is compared with the first one of its identity and the first one of its
number, and with no other. Where equality of payloads is an equivalence, that finds
any two arrivals that disagree, whichever order they come in.
-/

namespace CatalogPlan

variable {os : List Object} {batches : Batches} {failedKinds : List Value} {failed : List Kind}

/-- Two arrivals cannot be of one snapshot: they give one object two kinds or two
payloads, or two objects one number. -/
inductive Disagree (o k : Object) : Prop
  | entry (same : o.identity.same k.identity = true) (differ : o.kind ≠ k.kind ∨ ¬o.samePayload k) :
      Disagree o k
  | number (catalog : o.kind.catalog = k.kind.catalog) {n : Int} (ho : o.oid = some n)
      (hk : k.oid = some n) (differ : o.identity.same k.identity = false) : Disagree o k

theorem coherent_iff_agree (hnamed : ∀ o ∈ os, o.identity.isNumeric = false) :
    Coherent os ↔ ∀ o ∈ os, ∀ k ∈ os, ¬Disagree o k := by
  constructor
  · intro h o ho k hk hd
    cases hd with
    | entry same differ =>
      obtain ⟨hi, hp⟩ := h.agree o ho k hk (Identity.same_iff.mp same)
      exact differ.elim (fun hkind => hkind (congrArg Identity.kind hi)) fun hne => hne hp
    | number catalog hno hnk differ =>
      exact Identity.same_eq_false.mp differ (h.number o ho k hk catalog _ hno hnk)
  · intro h
    refine ⟨hnamed, fun o ho k hk ha => ?_, fun o ho k hk hcat n hno hnk => ?_⟩
    · have hs := Identity.same_iff.mpr ha
      have hkind : o.kind = k.kind := by
        by_contra hne
        exact h o ho k hk (.entry hs (.inl hne))
      refine ⟨Identity.eq_of_kind ha hkind, ?_⟩
      by_contra hne
      exact h o ho k hk (.entry hs (.inr hne))
    · by_contra hne
      exact h o ho k hk (.number hcat hno hnk (Identity.same_eq_false.mpr hne))

theorem collection_conflict (hnamed : ∀ o ∈ os, o.identity.isNumeric = false) :
    FailsOnly Fault.isConflict (Collection.ofObjects os) := by
  induction os using List.reverseRecOn with
  | nil => exact .pure _
  | append_singleton os o ih =>
    rw [Collection.ofObjects_snoc]
    have hrest : ∀ k ∈ os, k.identity.isNumeric = false := fun k hk => hnamed k (by simp [hk])
    exact (ih hrest).bind fun c => add_fault c (hnamed o (by simp))

theorem build_conflict_iff (hk : Graph.readKinds failedKinds = .ok failed)
    (hnamed : ∀ o ∈ arrivals batches, o.identity.isNumeric = false) :
    (∃ i first second, (Graph.build batches failedKinds).result = .error (.conflict i first second)) ↔
      ¬Consistent (arrivals batches) := by
  constructor
  · rintro ⟨i, first, second, h⟩ hcons
    rcases build_error.mp h with h | ⟨_, -, h | ⟨-, h⟩⟩
    · rw [hk] at h
      cases h
    · obtain ⟨c, hc⟩ := (Collection.ofObjects_isOk _).mpr hcons
      rw [hc] at h
      cases h
    · -- No reference fails with a conflict.
      cases FailsOnly.mapM (fun r _ => outcome_fault _ _ r) _ h
  · intro hnot
    cases hc : Collection.ofObjects (arrivals batches) with
    | ok c => exact absurd ((Collection.ofObjects_isOk _).mp ⟨c, hc⟩) hnot
    | error fault =>
      have hconflict := collection_conflict hnamed fault hc
      have hb := build_error.mpr (.inr ⟨failed, hk, .inl hc⟩)
      cases fault with
      | conflict i first second => exact ⟨i, first, second, hb⟩
      | _ => cases hconflict

/-- A build finds a conflict exactly where two arrivals disagree, wherever they
stand. -/
theorem build_conflict (hk : Graph.readKinds failedKinds = .ok failed)
    (hnamed : ∀ o ∈ arrivals batches, o.identity.isNumeric = false)
    (hc : Comparable (arrivals batches)) :
    (∃ i first second, (Graph.build batches failedKinds).result = .error (.conflict i first second)) ↔
      ∃ o ∈ arrivals batches, ∃ k ∈ arrivals batches, Disagree o k := by
  rw [build_conflict_iff hk hnamed, consistent_iff_coherent hc, coherent_iff_agree hnamed]
  simp only [not_forall, not_not, exists_prop]

def disputed : Batches :=
  [("table",
      [⟨⟨.table, .name "app.t"⟩, [], [], none⟩, ⟨⟨.table, .name "app.t"⟩, [], [], some 16400⟩]),
    ("view", [⟨⟨.view, .name "app.v"⟩, [], [⟨⟨.table, .name "app.t"⟩, none⟩], some 16400⟩])]

theorem build_conflict_disputed : ∃ i first second,
    (Graph.build disputed [.text "index"]).result = .error (.conflict i first second) := by
  have hk : Graph.readKinds [.text "index"] = .ok [.index] := rfl
  have hnamed : ∀ o ∈ arrivals disputed, o.identity.isNumeric = false := by decide
  have hempty : ∀ o ∈ arrivals disputed, o.payload = [] := by simp [arrivals, disputed]
  have hc : Comparable (arrivals disputed) := by
    refine Comparable.of_proper fun o ho => ?_
    rw [hempty o ho]
    exact .object List.nodup_nil (by simp)
  refine (build_conflict hk hnamed hc).mpr ⟨_, .tail _ (.head _), _, .tail _ (.tail _ (.head _)), ?_⟩
  exact .number rfl rfl rfl (by decide)

end CatalogPlan
