import CatalogPlan.Proofs.Equality
import CatalogPlan.Proofs.Graph.Exact

/-!
# Snapshots that say the same

Two lists of arrivals say the same when they have the same entries and the same
references, however these are listed, repeated or spread over arrivals. Then a
name or a number stands for objects in both that are read alike.
-/

namespace CatalogPlan

-- ---------------------------------------------------------------------------
-- Coherent arrivals
-- ---------------------------------------------------------------------------

def Object.samePayload (o k : Object) : Prop :=
  (Value.object o.payload).same (.object k.payload) = true

instance (o k : Object) : Decidable (o.samePayload k) :=
  inferInstanceAs (Decidable (_ = true))

theorem Object.Like.alike {o k : Object} (h : o.Like k) (hr : o.samePayload o) : o.Alike k := by
  refine ⟨h.identity, h.payload.elim (fun heq => ?_) id⟩
  exact heq ▸ ⟨hr, hr⟩

structure Comparable (os : List Object) : Prop where
  refl : ∀ o ∈ os, o.samePayload o
  symm : ∀ o ∈ os, ∀ k ∈ os, o.samePayload k → k.samePayload o
  trans : ∀ o ∈ os, ∀ k ∈ os, ∀ m ∈ os, o.samePayload k → k.samePayload m → o.samePayload m

/-- Arrivals of one identity agree, whichever came first, and a number belongs
to one identity. -/
structure Coherent (os : List Object) : Prop where
  named : ∀ o ∈ os, o.identity.isNumeric = false
  agree : ∀ o ∈ os, ∀ k ∈ os, o.identity.address = k.identity.address →
    o.identity = k.identity ∧ o.samePayload k
  number : ∀ o ∈ os, ∀ k ∈ os, o.kind.catalog = k.kind.catalog → ∀ n, o.oid = some n →
    k.oid = some n → o.identity.address = k.identity.address

theorem Comparable.of_proper (h : ∀ o ∈ os, (Value.object o.payload).Proper) : Comparable os :=
  ⟨fun o ho => Value.same_refl (h o ho), fun o ho k hk => Value.same_symm (h o ho) (h k hk),
    fun o ho k hk m hm => Value.same_trans (h o ho) (h k hk) (h m hm)⟩

theorem Comparable.subset (h : Comparable os) (hs : less ⊆ os) : Comparable less :=
  ⟨fun o ho => h.refl o (hs ho), fun o ho k hk => h.symm o (hs ho) k (hs hk),
    fun o ho k hk m hm => h.trans o (hs ho) k (hs hk) m (hs hm)⟩

theorem Coherent.subset (h : Coherent os) (hs : less ⊆ os) : Coherent less :=
  ⟨fun o ho => h.named o (hs ho), fun o ho k hk => h.agree o (hs ho) k (hs hk),
    fun o ho k hk => h.number o (hs ho) k (hs hk)⟩

theorem Coherent.alike (h : Coherent os) (ho : o ∈ os) (hk : k ∈ os)
    (ha : o.identity.address = k.identity.address) : o.Alike k :=
  ⟨(h.agree o ho k hk ha).1, (h.agree o ho k hk ha).2, (h.agree k hk o ho ha.symm).2⟩

theorem captured?_of_mem (h : o ∈ os) (ha : o.identity.address = i.address) :
    ∃ k, captured? os i = some k := by
  refine Option.isSome_iff_exists.mp (captured?_isSome_iff.mpr ?_)
  exact ha ▸ List.mem_map_of_mem h

theorem holder?_of_mem (h : o ∈ os) (hn : o.oid = some n) :
    ∃ k, holder? os o.kind.catalog n = some k := by
  refine Option.isSome_iff_exists.mp ?_
  rw [holder?, List.find?_isSome]
  exact ⟨o, h, by simp [hn]⟩

theorem Consistent.captured_cases (h : Consistent os) (ho : o ∈ os)
    (hk : captured? os o.identity = some known) : known = o ∨ Agrees known o := by
  obtain ⟨before, after, rfl⟩ := List.append_of_mem ho
  rw [captured?_append] at hk
  cases hb : captured? before o.identity with
  | some first =>
    rw [hb, Option.some_or] at hk
    exact .inr (Option.some.inj hk ▸ h.agree rfl first hb)
  | none =>
    have hself : captured? (o :: after) o.identity = some o := by simp [captured?]
    rw [hb, hself, Option.none_or] at hk
    exact .inl (Option.some.inj hk).symm

theorem Consistent.captured_kind (h : Consistent os) (ho : o ∈ os)
    (hk : captured? os o.identity = some known) : known.kind = o.kind := by
  rcases h.captured_cases ho hk with rfl | ha
  · rfl
  · exact ha.1

theorem Consistent.agree_captured (h : Consistent os) (hc : Comparable os) (ho : o ∈ os)
    (hk : captured? os o.identity = some known) : Agrees known o := by
  rcases h.captured_cases ho hk with rfl | ha
  · exact ⟨rfl, hc.refl known ho⟩
  · exact ha

theorem Consistent.number_holder (h : Consistent os) (ho : o ∈ os) (hn : o.oid = some n)
    (hk : holder? os o.kind.catalog n = some known) :
    known.identity.address = o.identity.address := by
  obtain ⟨before, after, rfl⟩ := List.append_of_mem ho
  rw [holder?_append] at hk
  cases hb : holder? before o.kind.catalog n with
  | some first =>
    rw [hb, Option.some_or] at hk
    exact Identity.same_iff.mp (Option.some.inj hk ▸ h.number rfl n hn first hb)
  | none =>
    have hself : holder? (o :: after) o.kind.catalog n = some o := by simp [holder?, hn]
    rw [hb, hself, Option.none_or] at hk
    rw [Option.some.inj hk]

/-- Where equality is an equivalence, the order of the arrivals does not bear on
their consistency. -/
theorem consistent_iff_coherent (hc : Comparable os) : Consistent os ↔ Coherent os := by
  constructor
  · intro h
    refine ⟨h.named, ?_, ?_⟩
    · intro o ho k hk ha
      obtain ⟨first, hfirst⟩ := captured?_of_mem hk ha.symm
      have hm := (captured?_mem hfirst).1
      have hfo := h.agree_captured hc ho hfirst
      have hfk := h.agree_captured hc hk ((captured?_congr os ha.symm).trans hfirst)
      refine ⟨Identity.eq_of_kind ha (hfo.1.symm.trans hfk.1), ?_⟩
      exact hc.trans o ho first hm k hk (hc.symm first hm o ho hfo.2) hfk.2
    · intro o ho k hk hcat n hno hnk
      obtain ⟨first, hfirst⟩ := holder?_of_mem ho hno
      rw [← h.number_holder ho hno hfirst]
      exact h.number_holder hk hnk (hcat ▸ hfirst)
  · intro h
    refine ⟨h.named, ?_, ?_⟩
    · rintro before o after rfl known hk
      obtain ⟨hm, ha⟩ := captured?_mem hk
      obtain ⟨hi, hp⟩ := h.agree known (List.mem_append_left _ hm) o (by simp) ha
      exact ⟨congrArg Identity.kind hi, hp⟩
    · rintro before o after rfl n hn known hk
      obtain ⟨hm, hcat, hnk⟩ := holder?_mem hk
      exact Identity.same_iff.mpr
        (h.number known (List.mem_append_left _ hm) o (by simp) hcat n hnk hn)

-- ---------------------------------------------------------------------------
-- Two snapshots
-- ---------------------------------------------------------------------------

structure SameEntry (o k : Object) : Prop where
  identity : o.identity = k.identity
  payload : o.samePayload k
  oid : o.oid = k.oid

instance (o k : Object) : Decidable (SameEntry o k) :=
  decidable_of_iff (o.identity = k.identity ∧ o.samePayload k ∧ o.oid = k.oid)
    ⟨fun ⟨hi, hp, hn⟩ => ⟨hi, hp, hn⟩, fun ⟨hi, hp, hn⟩ => ⟨hi, hp, hn⟩⟩

def Refers (os : List Object) (i : Identity) (d : Dependency) : Prop :=
  ∃ o ∈ os, o.identity.same i = true ∧ ∃ k ∈ o.dependencies, k.same d = true

theorem Refers.of_restated (h : ∀ o ∈ os, ∀ d ∈ o.dependencies, ∃ k ∈ os',
    k.identity.same o.identity = true ∧ ∃ d' ∈ k.dependencies, d'.same d = true)
    (href : Refers os i d) : Refers os' i d := by
  obtain ⟨o, ho, hi, k, hk, hs⟩ := href
  obtain ⟨o', ho', hi', d', hd', hs'⟩ := h o ho k hk
  refine ⟨o', ho', ?_, d', hd', ?_⟩
  · rw [Identity.same_iff] at hi hi' ⊢
    exact hi'.trans hi
  · rw [Dependency.same_iff] at hs hs' ⊢
    exact hs'.trans hs

/-- Two lists of arrivals have the same entries and the same references, and
equality is an equivalence on their payloads. -/
structure SameSnapshot (os os' : List Object) : Prop where
  comparable : Comparable (os ++ os')
  entry : ∀ o ∈ os, ∃ k ∈ os', SameEntry o k
  entry' : ∀ k ∈ os', ∃ o ∈ os, SameEntry k o
  refers : ∀ i d, Refers os i d ↔ Refers os' i d

namespace SameSnapshot

theorem symm (h : SameSnapshot os os') : SameSnapshot os' os :=
  ⟨h.comparable.subset (List.perm_append_comm.subset), h.entry', h.entry,
    fun i d => (h.refers i d).symm⟩

theorem coherent_append (h : SameSnapshot os os') (hc : Coherent os) : Coherent (os ++ os') := by
  have hrep : ∀ o ∈ os ++ os', ∃ k ∈ os, SameEntry o k := by
    intro o ho
    rcases List.mem_append.mp ho with ho | ho
    · exact ⟨o, ho, rfl, h.comparable.refl o (List.mem_append_left _ ho), rfl⟩
    · exact h.entry' o ho
  have hin : ∀ {o}, o ∈ os → o ∈ os ++ os' := fun ho => List.mem_append_left _ ho
  refine ⟨?_, ?_, ?_⟩
  · intro o ho
    obtain ⟨k, hk, he⟩ := hrep o ho
    exact he.identity ▸ hc.named k hk
  · intro o ho m hm ha
    obtain ⟨o', ho', heo⟩ := hrep o ho
    obtain ⟨m', hm', hem⟩ := hrep m hm
    obtain ⟨hi, hp⟩ := hc.agree o' ho' m' hm' (heo.identity ▸ hem.identity ▸ ha)
    refine ⟨heo.identity.trans (hi.trans hem.identity.symm), ?_⟩
    have hback := h.comparable.symm m hm m' (hin hm') hem.payload
    have hfront := h.comparable.trans o ho o' (hin ho') m' (hin hm') heo.payload hp
    exact h.comparable.trans o ho m' (hin hm') m hm hfront hback
  · intro o ho m hm hcat n hno hnm
    obtain ⟨o', ho', heo⟩ := hrep o ho
    obtain ⟨m', hm', hem⟩ := hrep m hm
    have hko : o.kind = o'.kind := congrArg Identity.kind heo.identity
    have hkm : m.kind = m'.kind := congrArg Identity.kind hem.identity
    rw [heo.identity, hem.identity]
    exact hc.number o' ho' m' hm' (hko ▸ hkm ▸ hcat) n (heo.oid ▸ hno) (hem.oid ▸ hnm)

theorem coherent_iff (h : SameSnapshot os os') : Coherent os ↔ Coherent os' :=
  ⟨fun hc => (h.coherent_append hc).subset (List.subset_append_right ..),
    fun hc => (h.symm.coherent_append hc).subset (List.subset_append_right ..)⟩

theorem consistent_iff (h : SameSnapshot os os') : Consistent os ↔ Consistent os' := by
  rw [consistent_iff_coherent (h.comparable.subset (List.subset_append_left ..)),
    consistent_iff_coherent (h.comparable.subset (List.subset_append_right ..)), h.coherent_iff]

end SameSnapshot

-- ---------------------------------------------------------------------------
-- What names and numbers stand for
-- ---------------------------------------------------------------------------

/-- Two lists of arrivals tell of the same objects: they have the same identities
and numbers, each with payloads that are read alike, and the same references. -/
structure Retold (os os' : List Object) : Prop where
  entry : ∀ o ∈ os, ∃ k ∈ os', o.identity = k.identity ∧ o.oid = k.oid
  entry' : ∀ k ∈ os', ∃ o ∈ os, k.identity = o.identity ∧ k.oid = o.oid
  like : ∀ o ∈ os, ∀ k ∈ os', o.identity.address = k.identity.address → o.Like k
  number : ∀ o ∈ os, ∀ k ∈ os', o.kind.catalog = k.kind.catalog → ∀ n, o.oid = some n →
    k.oid = some n → o.identity.address = k.identity.address
  refers : ∀ i d, Refers os i d ↔ Refers os' i d

theorem SameSnapshot.retold (h : SameSnapshot os os') (hc : Coherent os) : Retold os os' := by
  have hall := h.coherent_append hc
  refine ⟨?_, ?_, ?_, ?_, h.refers⟩
  · exact fun o ho => (h.entry o ho).imp fun _ hk => ⟨hk.1, hk.2.identity, hk.2.oid⟩
  · exact fun k hk => (h.entry' k hk).imp fun _ ho => ⟨ho.1, ho.2.identity, ho.2.oid⟩
  · exact fun o ho k hk ha =>
      (hall.alike (List.mem_append_left _ ho) (List.mem_append_right _ hk) ha).like
  · exact fun o ho k hk => hall.number o (List.mem_append_left _ ho) k (List.mem_append_right _ hk)

namespace Retold

theorem symm (h : Retold os os') : Retold os' os :=
  ⟨h.entry', h.entry, fun k hk o ho ha => (h.like o ho k hk ha.symm).symm,
    fun k hk o ho hcat n hkn hon => (h.number o ho k hk hcat.symm n hon hkn).symm,
    fun i d => (h.refers i d).symm⟩

variable (h : Retold os os')
include h

theorem captured?_like (ho : captured? os i = some o) :
    ∃ k, captured? os' i = some k ∧ o.Like k := by
  obtain ⟨hm, ha⟩ := captured?_mem ho
  obtain ⟨m, hm', hi, -⟩ := h.entry o hm
  obtain ⟨k, hk⟩ := captured?_of_mem hm' (hi ▸ ha)
  obtain ⟨hkm, hka⟩ := captured?_mem hk
  exact ⟨k, hk, h.like o hm k hkm (ha.trans hka.symm)⟩

theorem registered?_like (ho : registered? os target = some o) :
    ∃ k, registered? os' target = some k ∧ o.Like k := by
  cases hkey : target.key with
  | name s =>
    have hnamed : target.isNumeric = false := by simp [Identity.isNumeric, hkey, Key.isNumeric]
    rw [registered?_named hnamed] at ho ⊢
    exact h.captured?_like ho
  | oid n =>
    rw [registered?_numbered hkey] at ho ⊢
    obtain ⟨m, hm, hcap⟩ := Option.bind_eq_some_iff.mp ho
    obtain ⟨hmem, hcat, hn⟩ := holder?_mem hm
    obtain ⟨m', hm', hi, hoid⟩ := h.entry m hmem
    have hkind : m.kind = m'.kind := congrArg Identity.kind hi
    obtain ⟨first, hfirst⟩ := holder?_of_mem hm' (hoid ▸ hn)
    obtain ⟨hfm, hfcat, hfn⟩ := holder?_mem hfirst
    have ha : first.identity.address = m.identity.address := by
      refine (h.number m hmem first hfm ?_ n hn hfn).symm
      rw [hfcat, hkind]
    rw [← hcat, hkind, hfirst, Option.bind_some, captured?_congr os' ha]
    exact h.captured?_like hcap

theorem isNewSchema_eq (target : Identity) : isNewSchema os target = isNewSchema os' target := by
  have hnone : captured? os target = none ↔ captured? os' target = none := by
    simp only [Option.eq_none_iff_forall_ne_some]
    constructor
    · intro hall k hk
      obtain ⟨o, ho, -⟩ := h.symm.captured?_like hk
      exact hall o ho
    · intro hall k hk
      obtain ⟨o, ho, -⟩ := h.captured?_like hk
      exact hall o ho
  rw [Bool.eq_iff_iff, isNewSchema_iff, isNewSchema_iff, hnone]

theorem resolved?_some (ht : resolved? os target = some t) : resolved? os' target = some t := by
  rcases resolved?_eq_some_iff.mp ht with ⟨o, ho, rfl⟩ | ⟨hnew, rfl⟩
  · obtain ⟨k, hk, ha⟩ := h.registered?_like ho
    exact resolved?_eq_some_iff.mpr (.inl ⟨k, hk, ha.identity.symm⟩)
  · exact resolved?_of_newSchema (h.isNewSchema_eq target ▸ hnew)

theorem resolved?_eq (target : Identity) : resolved? os target = resolved? os' target :=
  Option.ext fun _ => ⟨h.resolved?_some, h.symm.resolved?_some⟩

end Retold

end CatalogPlan
