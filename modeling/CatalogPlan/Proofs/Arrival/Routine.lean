import CatalogPlan.Proofs.Arrival.Graph
import CatalogPlan.Proofs.Routine

/-!
# Routine bodies of snapshots that say the same

Where two snapshots tell of the same objects, the bodies of their routines name the
same objects, and with the references of all bodies the snapshots still do.
-/

namespace CatalogPlan.Routine

-- ---------------------------------------------------------------------------
-- What searching leaves alone
-- ---------------------------------------------------------------------------

structure Kept (o k : Object) : Prop where
  identity : k.identity = o.identity
  payload : k.payload = o.payload
  oid : k.oid = o.oid

theorem augment_kept [Sql.Parser] {known : Known} (h : (augment known o).result = .ok k) : Kept o k := by
  rcases augment_ok.mp h with ⟨-, rfl⟩ | ⟨sql, schemas, found, -, -, -, -, rfl⟩
  · exact ⟨rfl, rfl, rfl⟩
  · exact ⟨rfl, rfl, rfl⟩

theorem Kept.samePayload (ho : Kept o o') (hk : Kept k k') : o'.samePayload k' ↔ o.samePayload k := by
  rw [Object.samePayload, Object.samePayload, ho.payload, hk.payload]

theorem comparable_of_kept (h : ∀ k ∈ ks, ∃ o ∈ os, Kept o k) (hc : Comparable os) : Comparable ks := by
  refine ⟨?_, ?_, ?_⟩
  · intro k hk
    obtain ⟨o, ho, hok⟩ := h k hk
    exact (hok.samePayload hok).mpr (hc.refl o ho)
  · intro k hk l hl hkl
    obtain ⟨o, ho, hok⟩ := h k hk
    obtain ⟨m, hm, hml⟩ := h l hl
    exact (hml.samePayload hok).mpr (hc.symm o ho m hm ((hok.samePayload hml).mp hkl))
  · intro k hk l hl p hp hkl hlp
    obtain ⟨o, ho, hok⟩ := h k hk
    obtain ⟨m, hm, hml⟩ := h l hl
    obtain ⟨q, hq, hqp⟩ := h p hp
    exact (hok.samePayload hqp).mpr (hc.trans o ho m hm q hq ((hok.samePayload hml).mp hkl)
      ((hml.samePayload hqp).mp hlp))

theorem coherent_of_kept (h : ∀ o ∈ os, ∃ k ∈ ks, Kept o k) (hc : Coherent ks) : Coherent os := by
  refine ⟨?_, ?_, ?_⟩
  · intro o ho
    obtain ⟨k, hk, hok⟩ := h o ho
    exact hok.identity ▸ hc.named k hk
  · intro o ho m hm ha
    obtain ⟨k, hk, hok⟩ := h o ho
    obtain ⟨l, hl, hml⟩ := h m hm
    obtain ⟨hi, hp⟩ := hc.agree k hk l hl (by rw [hok.identity, hml.identity, ha])
    exact ⟨by rw [← hok.identity, hi, hml.identity], (hok.samePayload hml).mp hp⟩
  · intro o ho m hm hcat n hno hnm
    obtain ⟨k, hk, hok⟩ := h o ho
    obtain ⟨l, hl, hml⟩ := h m hm
    have hkind : k.kind.catalog = l.kind.catalog := by
      rw [Object.kind, Object.kind, hok.identity, hml.identity]
      exact hcat
    have ha := hc.number k hk l hl hkind n (hok.oid.trans hno) (hml.oid.trans hnm)
    rwa [hok.identity, hml.identity] at ha

-- ---------------------------------------------------------------------------
-- What bodies name
-- ---------------------------------------------------------------------------

theorem bodyTargets_congr {known known' : Known}
    (hrel : ∀ names i, i ∈ known.relations.firstOf names ↔ i ∈ known'.relations.firstOf names)
    (hrou : ∀ names i, i ∈ known.routines.firstOf names ↔ i ∈ known'.routines.firstOf names)
    (hi : i ∈ bodyTargets known schemas found) :
    ∃ j ∈ bodyTargets known' schemas found, j.address = i.address := by
  have hlook : ∀ {table table' : NameTable}, (∀ names i, i ∈ table.firstOf names ↔
      i ∈ table'.firstOf names) → ∀ w, i ∈ lookedUp table schemas w → i ∈ lookedUp table' schemas w := by
    intro table table' htable w hw
    obtain ⟨name, names, hname, hnames, hm⟩ := mem_lookedUp.mp hw
    exact mem_lookedUp.mpr ⟨name, names, hname, hnames, (htable names i).mp hm⟩
  have hmem := distinctIdentities_subset _ hi
  have hmem' : i ∈ ((inLookUpOrder found.relations).map (lookedUp known'.relations schemas)).flatten ++
      ((inLookUpOrder found.functions).map (lookedUp known'.routines schemas)).flatten := by
    simp only [List.mem_append, List.mem_flatten, List.mem_map, exists_exists_and_eq_and] at hmem ⊢
    rcases hmem with ⟨w, hw, h⟩ | ⟨w, hw, h⟩
    · exact .inl ⟨w, hw, hlook hrel w h⟩
    · exact .inr ⟨w, hw, hlook hrou w h⟩
  obtain ⟨j, hj, hs⟩ := distinctIdentities_covers hmem'
  exact ⟨j, hj, Identity.same_iff.mp hs⟩

theorem firstOf_congr {batches batches' : Batches}
    (h : ∀ o ∈ arrivals batches, ∃ k ∈ arrivals batches', o.identity = k.identity)
    (h' : ∀ k ∈ arrivals batches', ∃ o ∈ arrivals batches, k.identity = o.identity) :
    (∀ names i, i ∈ (Known.ofBatches batches).relations.firstOf names ↔
        i ∈ (Known.ofBatches batches').relations.firstOf names) ∧
      ∀ names i, i ∈ (Known.ofBatches batches).routines.firstOf names ↔
        i ∈ (Known.ofBatches batches').routines.firstOf names := by
  rw [ofBatches_eq, ofBatches_eq]
  have hkind : ∀ {o k : Object}, o.identity = k.identity → o.kind = k.kind :=
    fun h => congrArg Identity.kind h
  refine ⟨fun names i => NameTable.mem_firstOf_congr _ (fun i => ?_) names,
    fun names i => NameTable.mem_firstOf_congr _ (fun i => ?_) names⟩
  · rw [mem_relationsOf, mem_relationsOf]
    constructor
    · rintro ⟨o, ho, hr, rfl⟩
      obtain ⟨k, hk, he⟩ := h o ho
      exact ⟨k, hk, hkind he ▸ hr, he.symm⟩
    · rintro ⟨k, hk, hr, rfl⟩
      obtain ⟨o, ho, he⟩ := h' k hk
      exact ⟨o, ho, hkind he ▸ hr, he.symm⟩
  · rw [mem_routinesOf, mem_routinesOf]
    constructor
    · rintro ⟨o, ho, hr, rfl⟩
      obtain ⟨k, hk, he⟩ := h o ho
      exact ⟨k, hk, hkind he ▸ hr, he.symm⟩
    · rintro ⟨k, hk, hr, rfl⟩
      obtain ⟨o, ho, he⟩ := h' k hk
      exact ⟨o, ho, hkind he ▸ hr, he.symm⟩

-- ---------------------------------------------------------------------------
-- One object
-- ---------------------------------------------------------------------------

theorem augment_isOk [Sql.Parser] {known known' : Known} (ha : o.Like k)
    (h : (augment known o).result = .ok o') : ∃ k', (augment known' k).result = .ok k' := by
  rcases augment_ok.mp h with ⟨hnone, -⟩ | ⟨sql, schemas, found, hsome, hschemas, hfound, hs, -⟩
  · exact ⟨k, augment_ok.mpr (.inl ⟨(searchedBody?_like ha).1 hnone, rfl⟩)⟩
  · have hk := (searchedBody?_like ha).2 sql hsome
    exact ⟨_, augment_ok.mpr (.inr ⟨sql, schemas, found, hk, ha.identity ▸ hschemas, hfound, hs, rfl⟩)⟩

/-- Of two objects that are read alike both stay as they are, or both refer to what
one body names. -/
theorem augment_like [Sql.Parser] {known known' : Known} (ha : o.Like k)
    (ho : (augment known o).result = .ok o') (hk : (augment known' k).result = .ok k') :
    (o = o' ∧ k = k') ∨ ∃ schemas found,
      o' = .make o.identity o.payload
        (o.dependencies ++ bodyDependencies (bodyTargets known schemas found)) o.oid ∧
      k' = .make k.identity k.payload
        (k.dependencies ++ bodyDependencies (bodyTargets known' schemas found)) k.oid := by
  have hk := augment_ok.mp hk
  rcases augment_ok.mp ho with ⟨hnone, rfl⟩ | ⟨sql, schemas, found, hsome, hschemas, hfound, -, rfl⟩
  · simp only [(searchedBody?_like ha).1 hnone, reduceCtorEq, false_and, exists_false, or_false,
      true_and] at hk
    exact .inl ⟨rfl, hk⟩
  · simp only [(searchedBody?_like ha).2 sql hsome, reduceCtorEq, false_and, false_or,
      Option.some.injEq, Value.text.injEq] at hk
    obtain ⟨sql', schemas', found', rfl, hschemas', hfound', -, rfl⟩ := hk
    rw [← ha.identity, hschemas] at hschemas'
    obtain rfl := Except.ok.inj hschemas'
    obtain rfl := Except.ok.inj (hfound.symm.trans hfound')
    exact .inr ⟨schemas, found, rfl, rfl⟩

section
variable [Sql.Parser] {known known' : Known} (ha : o.Like k) (ho : (augment known o).result = .ok o')
  (hk : (augment known' k).result = .ok k') (hp : p ∈ o'.dependencies.map Dependency.point)
include ha ho hk hp

theorem own_points (hown : p ∈ k.dependencies.map Dependency.point) :
    p ∈ k'.dependencies.map Dependency.point := by
  rcases augment_like ha ho hk with ⟨rfl, rfl⟩ | ⟨schemas, found, rfl, rfl⟩
  · exact hown
  · refine mem_make_points.mpr ⟨?_, ha.identity ▸ (mem_make_points.mp hp).2⟩
    rw [List.map_append]
    exact List.mem_append_left _ hown

theorem body_points
    (hrel : ∀ names i, i ∈ known.relations.firstOf names ↔ i ∈ known'.relations.firstOf names)
    (hrou : ∀ names i, i ∈ known.routines.firstOf names ↔ i ∈ known'.routines.firstOf names) :
    p ∈ o.dependencies.map Dependency.point ∨ p ∈ k'.dependencies.map Dependency.point := by
  rcases augment_like ha ho hk with ⟨rfl, rfl⟩ | ⟨schemas, found, rfl, rfl⟩
  · exact .inl hp
  · obtain ⟨hp, hne⟩ := mem_make_points.mp hp
    rw [List.map_append, List.mem_append] at hp
    refine hp.imp_right fun hbody => mem_make_points.mpr ⟨?_, ha.identity ▸ hne⟩
    obtain ⟨d, hd, rfl⟩ := List.mem_map.mp hbody
    obtain ⟨i, hi, rfl⟩ := List.mem_map.mp hd
    obtain ⟨j, hj, hja⟩ := bodyTargets_congr hrel hrou hi
    rw [List.map_append]
    refine List.mem_append_right _ (List.mem_map.mpr ⟨_, List.mem_map.mpr ⟨j, hj, rfl⟩, ?_⟩)
    rw [Dependency.point, Dependency.point, hja]

end

-- ---------------------------------------------------------------------------
-- Whole snapshots
-- ---------------------------------------------------------------------------

theorem refers_iff : Refers os i d ↔ ∃ o ∈ os, o.identity.address = i.address ∧
    d.point ∈ o.dependencies.map Dependency.point := by
  simp only [Refers, Identity.same_iff, Dependency.exists_same]

section
variable {batches batches' b b' : Batches} (h : Retold (arrivals batches) (arrivals batches'))
include h

theorem augmentAll_like [Sql.Parser] (hb : (augmentAll batches).result = .ok b) :
    ∃ b', (augmentAll batches').result = .ok b' := by
  refine (augmentAll_isOk batches').mpr fun k hk => ?_
  obtain ⟨o, ho, hi, -⟩ := h.entry' k hk
  obtain ⟨o', ho'⟩ := (augmentAll_isOk batches).mp ⟨b, hb⟩ o ho
  exact augment_isOk (h.like o ho k hk (by rw [hi])) ho'

theorem augmented_refers [Sql.Parser] (hb : (augmentAll batches).result = .ok b)
    (hb' : (augmentAll batches').result = .ok b') (href : Refers (arrivals b) i d) :
    Refers (arrivals b') i d := by
  obtain ⟨o', ho', ha, hp⟩ := refers_iff.mp href
  obtain ⟨o, ho, hoo'⟩ := forall₂_mem_right (augmentAll_arrivals hb) ho'
  rw [(augment_kept hoo').identity] at ha
  have himage : ∀ k ∈ arrivals batches', k.identity.address = o.identity.address →
      ∃ k' ∈ arrivals b', (augment (Known.ofBatches batches') k).result = .ok k' ∧ o.Like k ∧
        k'.identity.address = i.address := by
    intro k hk hka
    obtain ⟨k', hk', hkk'⟩ := forall₂_mem_left (augmentAll_arrivals hb') hk
    refine ⟨k', hk', hkk', h.like o ho k hk hka.symm, ?_⟩
    rw [(augment_kept hkk').identity, hka, ha]
  obtain ⟨hrel, hrou⟩ := firstOf_congr
    (fun o ho => (h.entry o ho).imp fun _ hk => ⟨hk.1, hk.2.1⟩)
    (fun k hk => (h.entry' k hk).imp fun _ ho => ⟨ho.1, ho.2.1⟩)
  obtain ⟨m, hm, hi, -⟩ := h.entry o ho
  obtain ⟨m', hm', hmm', hlike, hma⟩ := himage m hm (by rw [hi])
  rcases body_points hlike hoo' hmm' hp hrel hrou with hown | hbody
  · obtain ⟨d', hd', hdp⟩ := List.mem_map.mp hown
    obtain ⟨k, hk, hka, d₂, hd₂, hp₂⟩ := h.reference ho hd'
    obtain ⟨k', hk', hkk', hlike', hka'⟩ := himage k hk hka
    exact refers_iff.mpr ⟨k', hk', hka',
      own_points hlike' hoo' hkk' hp (List.mem_map.mpr ⟨d₂, hd₂, hp₂.trans hdp⟩)⟩
  · exact refers_iff.mpr ⟨m', hm', hma, hbody⟩

end

theorem exists_kept [Sql.Parser] {batches b : Batches} (hb : (augmentAll batches).result = .ok b) :
    (∀ o ∈ arrivals batches, ∃ k ∈ arrivals b, Kept o k) ∧
      ∀ k ∈ arrivals b, ∃ o ∈ arrivals batches, Kept o k := by
  have harr := augmentAll_arrivals hb
  constructor
  · intro o ho
    obtain ⟨k, hk, hok⟩ := forall₂_mem_left harr ho
    exact ⟨k, hk, augment_kept hok⟩
  · intro k hk
    obtain ⟨o, ho, hok⟩ := forall₂_mem_right harr hk
    exact ⟨o, ho, augment_kept hok⟩

section
variable [Sql.Parser] {batches batches' b b' : Batches} (hb : (augmentAll batches).result = .ok b)
  (hb' : (augmentAll batches').result = .ok b')
include hb hb'

theorem augmented_retold (h : Retold (arrivals batches) (arrivals batches')) :
    Retold (arrivals b) (arrivals b') := by
  have hentry : ∀ {bs bs' cs cs' : Batches}, (augmentAll bs).result = .ok cs →
      (augmentAll bs').result = .ok cs' → Retold (arrivals bs) (arrivals bs') →
      ∀ o ∈ arrivals cs, ∃ k ∈ arrivals cs', o.identity = k.identity ∧ o.oid = k.oid := by
    intro bs bs' cs cs' hbs hbs' hall o' ho'
    obtain ⟨o, ho, hoo'⟩ := (exists_kept hbs).2 o' ho'
    obtain ⟨k, hk, hi, hn⟩ := hall.entry o ho
    obtain ⟨k', hk', hkk'⟩ := (exists_kept hbs').1 k hk
    exact ⟨k', hk', by rw [hoo'.identity, hkk'.identity, hi], by rw [hoo'.oid, hkk'.oid, hn]⟩
  refine ⟨hentry hb hb' h, hentry hb' hb h.symm, ?_, ?_,
    fun i d => ⟨augmented_refers h hb hb', augmented_refers h.symm hb' hb⟩⟩
  · intro o' ho' k' hk' ha
    obtain ⟨o, ho, hoo'⟩ := (exists_kept hb).2 o' ho'
    obtain ⟨k, hk, hkk'⟩ := (exists_kept hb').2 k' hk'
    rw [hoo'.identity, hkk'.identity] at ha
    obtain ⟨hi, hp⟩ := h.like o ho k hk ha
    exact ⟨by rw [hoo'.identity, hkk'.identity, hi], by rwa [hoo'.payload, hkk'.payload]⟩
  · intro o' ho' k' hk' hcat n hno hnk
    obtain ⟨o, ho, hoo'⟩ := (exists_kept hb).2 o' ho'
    obtain ⟨k, hk, hkk'⟩ := (exists_kept hb').2 k' hk'
    rw [hoo'.oid] at hno
    rw [hkk'.oid] at hnk
    rw [Object.kind, Object.kind, hoo'.identity, hkk'.identity] at hcat
    rw [hoo'.identity, hkk'.identity]
    exact h.number o ho k hk hcat n hno hnk

end

theorem augmented_sameSnapshot [Sql.Parser] {batches batches' b b' : Batches}
    (h : SameSnapshot (arrivals batches) (arrivals batches')) (hc : Coherent (arrivals batches))
    (hb : (augmentAll batches).result = .ok b) (hb' : (augmentAll batches').result = .ok b') :
    SameSnapshot (arrivals b) (arrivals b') := by
  have hentry : ∀ {bs bs' cs cs' : Batches}, (augmentAll bs).result = .ok cs →
      (augmentAll bs').result = .ok cs' →
      (∀ o ∈ arrivals bs, ∃ k ∈ arrivals bs', SameEntry o k) →
      ∀ o ∈ arrivals cs, ∃ k ∈ arrivals cs', SameEntry o k := by
    intro bs bs' cs cs' hbs hbs' hall o' ho'
    obtain ⟨o, ho, hoo'⟩ := (exists_kept hbs).2 o' ho'
    obtain ⟨k, hk, he⟩ := hall o ho
    obtain ⟨k', hk', hkk'⟩ := (exists_kept hbs').1 k hk
    exact ⟨k', hk', by rw [hoo'.identity, hkk'.identity, he.identity],
      (hoo'.samePayload hkk').mpr he.payload, by rw [hoo'.oid, hkk'.oid, he.oid]⟩
  refine ⟨comparable_of_kept ?_ h.comparable, hentry hb hb' h.entry, hentry hb' hb h.entry',
    (augmented_retold hb hb' (h.retold hc)).refers⟩
  intro k hk
  rcases List.mem_append.mp hk with hk | hk
  · exact ((exists_kept hb).2 k hk).imp fun o ho => ⟨List.mem_append_left _ ho.1, ho.2⟩
  · exact ((exists_kept hb').2 k hk).imp fun o ho => ⟨List.mem_append_right _ ho.1, ho.2⟩

/-- Bodies name captured objects, so canonical objects stay canonical. -/
theorem augmented_canonical [Sql.Parser] (hb : (augmentAll batches).result = .ok b)
    (hcanon : ∀ o ∈ arrivals batches, o.Canonical) : ∀ o ∈ arrivals b, o.Canonical := by
  intro o' ho'
  obtain ⟨o, ho, hoo'⟩ := forall₂_mem_right (augmentAll_arrivals hb) ho'
  have hc := hcanon o ho
  rcases augment_ok.mp hoo' with ⟨-, rfl⟩ | ⟨sql, schemas, found, -, -, -, -, rfl⟩
  · exact hc
  · refine ⟨hc.identity, fun d hd => ?_⟩
    rcases List.mem_append.mp (make_dependencies_subset _ _ _ _ hd) with hd | hd
    · exact hc.target d hd
    · obtain ⟨i, hi, rfl⟩ := List.mem_map.mp hd
      obtain ⟨k, hk, rfl, -⟩ := mem_bodyTargets hi
      exact (hcanon k hk).identity

end CatalogPlan.Routine
