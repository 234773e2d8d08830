import CatalogPlan.Proofs.Arrival.Plan
import CatalogPlan.Proofs.Graph.Compared

/-!
# Arrivals in another order

Arrivals are consistent when any two of them are compatible, wherever they stand.
For that, equality of payloads need not be reflexive: an object that arrives once is
compared with nothing. So the same arrivals in another order have the same plan.
-/

namespace CatalogPlan

structure PartlyComparable (os : List Object) : Prop where
  symm : ∀ o ∈ os, ∀ k ∈ os, o.samePayload k → k.samePayload o
  trans : ∀ o ∈ os, ∀ k ∈ os, ∀ m ∈ os, o.samePayload k → k.samePayload m → o.samePayload m

/-- Two arrivals agree if they are of one object, and are of one object if they have one
number. -/
structure Compatible (o k : Object) : Prop where
  alike : o.identity.address = k.identity.address → o.Alike k
  number : o.kind.catalog = k.kind.catalog → ∀ n, o.oid = some n → k.oid = some n →
    o.identity.address = k.identity.address

theorem Compatible.symm (h : Compatible o k) : Compatible k o :=
  ⟨fun ha => ⟨(h.alike ha.symm).identity.symm, (h.alike ha.symm).payload.symm⟩,
    fun hcat n hk ho => (h.number hcat.symm n ho hk).symm⟩

instance : Std.Symm Compatible :=
  ⟨fun _ _ => Compatible.symm⟩

theorem Compatible.of_pairwise {os : List Object} (h : os.Pairwise Compatible) (ho : o ∈ os)
    (hk : k ∈ os) (hne : o ≠ k) : Compatible o k :=
  h.forall ho hk hne

namespace PartlyComparable

theorem subset (h : PartlyComparable os) (hs : less ⊆ os) : PartlyComparable less :=
  ⟨fun o ho k hk => h.symm o (hs ho) k (hs hk),
    fun o ho k hk m hm => h.trans o (hs ho) k (hs hk) m (hs hm)⟩

theorem of_comparable (h : Comparable os) : PartlyComparable os :=
  ⟨h.symm, h.trans⟩

end PartlyComparable

-- ---------------------------------------------------------------------------
-- Consistent arrivals
-- ---------------------------------------------------------------------------

theorem compatible_of_first (hc : PartlyComparable (os ++ [o])) (h : os.Pairwise Compatible)
    (hagree : ∀ known, captured? os o.identity = some known → Agrees known o)
    (hnumber : ∀ n, o.oid = some n → ∀ known, holder? os o.kind.catalog n = some known →
      known.identity.same o.identity = true) (hk : k ∈ os) : Compatible k o := by
  have hin : ∀ {m}, m ∈ os → m ∈ os ++ [o] := fun hm => List.mem_append_left _ hm
  have ho : o ∈ os ++ [o] := by simp
  constructor
  · intro ha
    obtain ⟨first, hfirst⟩ := captured?_of_mem hk ha
    obtain ⟨hm, hfa⟩ := captured?_mem hfirst
    obtain ⟨hkind, hpayload⟩ := hagree first hfirst
    have hback := hc.symm first (hin hm) o ho hpayload
    have hfo : first.Alike o := ⟨Identity.eq_of_kind hfa hkind, hpayload, hback⟩
    by_cases hne : k = first
    · exact hne ▸ hfo
    · have hkf := (Compatible.of_pairwise h hk hm hne).alike (ha.trans hfa.symm)
      refine ⟨hkf.identity.trans hfo.identity, ?_, ?_⟩
      · exact hc.trans k (hin hk) first (hin hm) o ho hkf.payload.1 hpayload
      · exact hc.trans o ho first (hin hm) k (hin hk) hback hkf.payload.2
  · intro hcat n hnk hno
    obtain ⟨first, hfirst⟩ := holder?_of_mem hk hnk
    obtain ⟨hm, hfcat, hfn⟩ := holder?_mem hfirst
    have hfo := Identity.same_iff.mp (hnumber n hno first (hcat ▸ hfirst))
    by_cases hne : k = first
    · exact hne ▸ hfo
    · exact ((Compatible.of_pairwise h hk hm hne).number hfcat.symm n hnk hfn).trans hfo

/-- Where equality is symmetric and transitive, comparing with what came first finds
any two arrivals that are not compatible. -/
theorem consistent_iff_pairwise (hc : PartlyComparable os) : Consistent os ↔
    (∀ o ∈ os, o.identity.isNumeric = false) ∧ os.Pairwise Compatible := by
  induction os using List.reverseRecOn with
  | nil => exact ⟨fun h => ⟨h.named, .nil⟩, fun _ => ⟨by simp, by simp, by simp⟩⟩
  | append_singleton os o ih =>
    have ih := ih (hc.subset (List.subset_append_left ..))
    rw [consistent_snoc, ih, List.pairwise_append, List.forall_mem_append]
    simp only [List.mem_singleton, forall_eq, List.pairwise_singleton, true_and]
    constructor
    · rintro ⟨⟨hnamed, hpair⟩, ho, hagree, hnumber⟩
      exact ⟨⟨hnamed, ho⟩, hpair, fun k => compatible_of_first hc hpair hagree hnumber⟩
    · rintro ⟨⟨hnamed, ho⟩, hpair, hall⟩
      refine ⟨⟨hnamed, hpair⟩, ho, ?_, ?_⟩
      · intro known hknown
        obtain ⟨hm, ha⟩ := captured?_mem hknown
        have halike := (hall known hm).alike ha
        exact ⟨congrArg Identity.kind halike.identity, halike.payload.1⟩
      · intro n hn known hknown
        obtain ⟨hm, hcat, hkn⟩ := holder?_mem hknown
        exact Identity.same_iff.mpr ((hall known hm).number hcat n hkn hn)

theorem consistent_perm (hc : PartlyComparable os) (hp : os.Perm os') :
    Consistent os ↔ Consistent os' := by
  rw [consistent_iff_pairwise hc, consistent_iff_pairwise (hc.subset hp.symm.subset),
    hp.pairwise_iff Compatible.symm]
  simp only [hp.mem_iff]

-- ---------------------------------------------------------------------------
-- Plans
-- ---------------------------------------------------------------------------

theorem Retold.of_perm (hc : PartlyComparable os) (hcons : Consistent os) (hp : os.Perm os') :
    Retold os os' := by
  have hpair := ((consistent_iff_pairwise hc).mp hcons).2
  refine ⟨fun o ho => ⟨o, hp.mem_iff.mp ho, rfl, rfl⟩, fun k hk => ⟨k, hp.mem_iff.mpr hk, rfl, rfl⟩,
    ?_, ?_, fun i d => by simp only [Refers, hp.mem_iff]⟩
  · intro o ho k hk ha
    by_cases hne : o = k
    · exact ⟨congrArg _ hne, .inl (congrArg _ hne)⟩
    · exact ((Compatible.of_pairwise hpair ho (hp.mem_iff.mpr hk) hne).alike ha).like
  · intro o ho k hk hcat n hno hnk
    by_cases hne : o = k
    · rw [hne]
    · exact (Compatible.of_pairwise hpair ho (hp.mem_iff.mpr hk) hne).number hcat n hno hnk

theorem plan_perm [Sql.Parser] {batches batches' : Batches} {failedKinds : List Value}
    (hc : PartlyComparable (arrivals batches)) (hperm : (arrivals batches).Perm (arrivals batches'))
    (hp : (plan batches failedKinds).result = .ok p) :
    ∃ q, (plan batches' failedKinds).result = .ok q ∧ LikePlanned p q ∧
      ((∀ o ∈ arrivals batches, o.Canonical) →
        p.graph.diagnostics.map Diagnostic.place = q.graph.diagnostics.map Diagnostic.place) := by
  obtain ⟨b, hb, g, hg, -⟩ := plan_ok.mp hp
  have hcons : Consistent (arrivals batches) :=
    (consistent_bare (Routine.map_bare_of_augmented hb)).mpr (build_consistent_exact hg).1
  have hretold := Retold.of_perm hc hcons hperm
  obtain ⟨b', hb'⟩ := Routine.augmentAll_like hretold hb
  refine hretold.plan hb' ?_ hp
  exact (consistent_bare (Routine.map_bare_of_augmented hb')).mp ((consistent_perm hc hperm).mp hcons)

end CatalogPlan
