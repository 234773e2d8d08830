import CatalogPlan.Proofs.Emission
import CatalogPlan.Proofs.Heap

/-!
# The queue of a run

The counts of a run are those of the edges that are left, and its heap holds the
objects that are ready. So the object that comes out of the heap is the least of
them, and a run gives the order that is described without counts and heaps. It
fails just where two objects of one rank are ready together.
-/

namespace CatalogPlan

namespace Emission

variable {nodes : List Identity} {es : List Edge} {i j : Identity}

-- ---------------------------------------------------------------------------
-- Comparing objects
-- ---------------------------------------------------------------------------

theorem before_eq_true : before i j = .ok true ↔
    i.creationRank ≠ j.creationRank ∧ creationRankLe i.creationRank j.creationRank = true := by
  unfold before
  split
  · rename_i h
    cases hs : i.same j <;> simp [h]
  · rename_i h
    simp [h]

theorem before_eq_false : before j i = .ok false ↔
    creationRankLe i.creationRank j.creationRank = true ∧
      (i.creationRank = j.creationRank → i.address = j.address) := by
  unfold before
  split
  · rename_i h
    rw [Identity.same_comm]
    cases hs : i.same j with
    | true => simp [h, Identity.same_iff.mp hs, linearLe_creationRank.refl]
    | false => simp [h, Identity.same_eq_false.mp hs]
  · rename_i h
    simp only [Except.ok.injEq, Ne.symm h, false_implies, and_true]
    refine ⟨fun hlt => (linearLe_creationRank.total _ _).resolve_right (by simp [hlt]), fun hle => ?_⟩
    rw [Bool.eq_false_iff]
    exact fun hge => h (linearLe_creationRank.antisymm _ _ hge hle)

theorem before_eq_error : before i j = .error fault ↔
    i.creationRank = j.creationRank ∧ i.address ≠ j.address ∧
      fault = .wrongShape .ordered (.text i.text) := by
  unfold before
  split
  · rename_i h
    cases hs : i.same j with
    | true => simp [Identity.same_iff.mp hs]
    | false => simp [h, Identity.same_eq_false.mp hs, eq_comm]
  · rename_i h
    simp [h]

theorem before_lawful : Heap.Lawful before where
  asymm h := by
    obtain ⟨hne, hle⟩ := before_eq_true.mp h
    exact before_eq_false.mpr ⟨hle, fun heq => absurd heq hne⟩
  trans hab hbc := by
    obtain ⟨hab, hsame⟩ := before_eq_false.mp hab
    obtain ⟨hbc, hsame'⟩ := before_eq_false.mp hbc
    refine before_eq_false.mpr ⟨linearLe_creationRank.trans _ _ _ hab hbc, fun heq => ?_⟩
    -- A rank between two equal ones is the same.
    have hfirst := linearLe_creationRank.antisymm _ _ hab (heq ▸ hbc)
    exact (hsame hfirst).trans (hsame' (hfirst.symm.trans heq))

/-- Two objects of one rank are in a queue, and comparing them fails. -/
def Tie (queue : List Identity) (fault : Fault) : Prop :=
  ∃ i ∈ queue, ∃ j ∈ queue, before i j = .error fault

theorem Tie.mono (h : Tie queue fault) (hs : queue ⊆ queue') : Tie queue' fault := by
  obtain ⟨i, hi, j, hj, hb⟩ := h
  exact ⟨i, hs hi, j, hs hj, hb⟩

theorem Tie.not_nodup (h : Tie queue fault) : ¬ (queue.map Identity.creationRank).Nodup := by
  obtain ⟨i, hi, j, hj, hb⟩ := h
  obtain ⟨hrank, haddress, -⟩ := before_eq_error.mp hb
  exact fun hn => haddress (congrArg _ (List.inj_on_of_nodup_map hn hi hj hrank))

-- ---------------------------------------------------------------------------
-- Counts
-- ---------------------------------------------------------------------------

namespace Counts

theorem ofEdges_perm (h : es.Perm es') : ofEdges nodes es = ofEdges nodes es' := by
  simp only [ofEdges, h.countP_eq]

theorem decrement_ofEdges (d : Edge) :
    (ofEdges nodes (d :: es)).decrement d.source = ofEdges nodes es := by
  simp only [decrement, ofEdges, List.map_map]
  refine List.map_congr_left fun i _ => ?_
  simp only [Function.comp, List.countP_cons, Identity.same_comm i]
  split <;> simp

theorem count_eq_zero (es : List Edge) (i : Identity) :
    ((es.countP (·.source.same i) : Int) == 0) = !es.any (·.source.same i) := by
  rw [Bool.eq_iff_iff]
  simp [List.countP_eq_zero]

theorem isFree_ofEdges (hi : i.address ∈ nodes.map Identity.address) :
    (ofEdges nodes es).isFree i = !es.any (·.source.same i) := by
  obtain ⟨j, hj, ha⟩ := List.mem_map.mp hi
  simp only [isFree, ofEdges, List.any_map, Function.comp_def, count_eq_zero]
  rw [Bool.eq_iff_iff, List.any_eq_true]
  constructor
  · rintro ⟨k, -, hk⟩
    obtain ⟨hk, hfree⟩ := Bool.and_eq_true_iff.mp hk
    simpa only [Identity.same_congr (Identity.same_iff.mp hk)] using hfree
  · intro hfree
    refine ⟨j, hj, Bool.and_eq_true_iff.mpr ⟨Identity.same_iff.mpr ha, ?_⟩⟩
    simpa only [Identity.same_congr ha] using hfree

theorem free_ofEdges (nodes : List Identity) (es : List Edge) :
    (ofEdges nodes es).free = ready nodes es := by
  simp only [free, ofEdges, List.filter_map, List.map_map, Function.comp_def, count_eq_zero]
  exact List.map_id _

end Counts

-- ---------------------------------------------------------------------------
-- What a run holds
-- ---------------------------------------------------------------------------

/-- The counts are those of some edges, and some objects are in the heap. -/
structure Holds (nodes : List Identity) (es : List Edge) (queue : List Identity) (w : Waiting) :
    Prop where
  counts : w.counts = Counts.ofEdges nodes es
  perm : w.queue.toList.Perm queue
  isHeap : Heap.IsHeap before w.queue

structure Queues (nodes : List Identity) (es : List Edge) (queue : List Identity)
    (x : Except Fault Waiting) : Prop where
  holds : ∀ w, x = .ok w → Holds nodes es queue w
  tie : ∀ fault, x = .error fault → Tie queue fault

theorem Queues.ok {w : Waiting} (h : Holds nodes es queue w) : Queues nodes es queue (.ok w) where
  holds _ hx := Except.ok.inj hx ▸ h
  tie := by simp

theorem Queues.error (h : Tie queue fault) : Queues nodes es queue (.error fault) where
  holds := by simp
  tie _ hx := Except.error.inj hx ▸ h

theorem Queues.of_perm {queue queue' : List Identity} (h : Queues nodes es queue x)
    (hp : queue.Perm queue') : Queues nodes es queue' x where
  holds w hx := { h.holds w hx with perm := (h.holds w hx).perm.trans hp }
  tie fault hx := (h.tie fault hx).mono hp.subset

theorem queues_of_gives {entries : List Identity} {x : Except Fault (Array Identity)}
    (h : Heap.Gives before entries x) (hp : entries.Perm queue) :
    Queues nodes es queue (do return ⟨Counts.ofEdges nodes es, ← x⟩) := by
  cases x with
  | error fault =>
    have htie : Tie entries fault := h.clash _ rfl
    exact .error (htie.mono hp.subset)
  | ok heap => exact .ok ⟨rfl, (h.perm _ rfl).trans hp, h.isHeap _ rfl⟩

theorem start_queues (nodes : List Identity) (es : List Edge) :
    Queues nodes es (ready nodes es) (Waiting.start nodes es) := by
  simp only [Waiting.start, Counts.free_ofEdges]
  exact queues_of_gives (Heap.ofList_gives before_lawful _) (.refl _)

theorem notify_queues {w : Waiting} {d : Edge} (h : Holds nodes (d :: es) queue w)
    (hd : d.source.address ∈ nodes.map Identity.address) :
    Queues nodes es (if es.any (·.source.same d.source) then queue else d.source :: queue)
      (w.notify d.source) := by
  simp only [Waiting.notify, h.counts, Counts.decrement_ofEdges, Counts.isFree_ofEdges hd]
  cases es.any (·.source.same d.source) with
  | true => exact .ok ⟨rfl, h.perm, h.isHeap⟩
  | false => exact queues_of_gives (Heap.push_gives before_lawful h.isHeap _) (h.perm.cons _)

/-- The objects that wait for some edges only, and not for others. -/
def freed (gone left : List Edge) : List Identity :=
  (gone.filter fun d => !left.any (·.source.same d.source)).map (·.source)

theorem foldlM_notify_queues {gone left : List Edge}
    (hn : ((gone.map (·.source)).map Identity.address).Nodup)
    (hends : ∀ d ∈ gone, d.source.address ∈ nodes.map Identity.address) {w : Waiting}
    (h : Holds nodes (gone ++ left) queue w) :
    Queues nodes left (freed gone left ++ queue)
      ((gone.map (·.source)).foldlM Waiting.notify w) := by
  induction gone generalizing queue w with
  | nil => exact .ok h
  | cons d gone ih =>
    obtain ⟨hd, hn⟩ := List.nodup_cons.mp hn
    obtain ⟨hend, hends⟩ := List.forall_mem_cons.mp hends
    have hfirst := notify_queues h hend
    -- An object waits for another one once, so what is left to tell does not count.
    have hgone : gone.any (·.source.same d.source) = false := by
      simp only [List.any_eq_false, Bool.not_eq_true, Identity.same_eq_false]
      exact fun e he ha => hd (ha ▸ List.mem_map_of_mem (List.mem_map_of_mem he))
    rw [List.append_eq, List.any_append, hgone, Bool.false_or] at hfirst
    have hqueue : (freed gone left ++
        (if left.any (·.source.same d.source) then queue else d.source :: queue)).Perm
          (freed (d :: gone) left ++ queue) := by
      unfold freed
      cases hleft : left.any (·.source.same d.source) with
      | true => simp [hleft]
      | false => simp [hleft, List.perm_middle]
    rw [List.map_cons, List.foldlM_cons]
    cases hw : w.notify d.source with
    | error fault =>
      exact .error ((hfirst.tie _ hw).mono fun i hi => hqueue.subset (List.mem_append_right _ hi))
    | ok w => exact (ih hn hends (hfirst.holds w hw)).of_perm hqueue

-- ---------------------------------------------------------------------------
-- One step
-- ---------------------------------------------------------------------------

theorem simple_rest (hs : Simple nodes es) (hi : i ∈ ready nodes es) :
    Simple ((nodes.filter fun j => !j.same i).map (release i es))
      (es.filter fun e => !e.target.same i) := by
  refine ⟨?_, hs.arcs_nodup.sublist (List.filter_sublist.map _), rest_ends (mem_ready.mp hi).2 hs.ends_mem⟩
  rw [map_release_addresses]
  exact hs.nodes_nodup.filter _

theorem dependents_nodup (hs : Simple nodes es) (i : Identity) :
    ((dependents es i).map Identity.address).Nodup := by
  have harcs := hs.arcs_nodup.sublist
    ((List.filter_sublist (p := fun e : Edge => e.target.same i)).map Edge.arc)
  rw [dependents, List.map_map]
  refine (harcs.of_map _).map_on fun e he d hd ha => ?_
  have he' := Identity.same_iff.mp (List.mem_filter.mp he).2
  have hd' := Identity.same_iff.mp (List.mem_filter.mp hd).2
  exact List.inj_on_of_nodup_map harcs he hd (Prod.ext ha (he'.trans hd'.symm))

theorem release_of_free (h : ∀ e ∈ es, e.source.address ≠ j.address) : release i es j = j := by
  have hnone : es.find? (·.joins j i) = none := by
    rw [List.find?_eq_none]
    intro e he hj
    exact h e he (congrArg Prod.fst (Edge.joins_iff.mp hj))
  rw [release, hnone]

theorem release_of_freed (hs : Simple nodes es) (hd : d ∈ es) (ha : d.source.address = j.address)
    (ht : d.target.address = i.address)
    (hfree : ∀ e ∈ es.filter (fun e => !e.target.same i), e.source.address ≠ j.address) :
    release i es j = d.source := by
  have hwaits : es.any (fun k => k.source.same j && !k.target.same i) = false := by
    simp only [List.any_eq_false, Bool.and_eq_true, not_and]
    exact fun k hk hkj hki => hfree k (List.mem_filter.mpr ⟨hk, hki⟩) (Identity.same_iff.mp hkj)
  have harc : d.arc = (j.address, i.address) := Prod.ext ha ht
  have hfind : es.find? (·.joins j i) = some d := by
    obtain ⟨e, he⟩ : ∃ e, es.find? (·.joins j i) = some e :=
      Option.isSome_iff_exists.mp (List.find?_isSome.mpr ⟨d, hd, Edge.joins_iff.mpr harc⟩)
    have hjoins : e.joins j i = true := by simpa using List.find?_some he
    rw [he, List.inj_on_of_nodup_map hs.arcs_nodup (List.mem_of_find?_eq_some he) hd
      ((Edge.joins_iff.mp hjoins).trans harc.symm)]
  rw [release, hfind]
  exact if_neg (by simp [hwaits])

theorem mem_freed {gone left : List Edge} : k ∈ freed gone left ↔
    ∃ d ∈ gone, d.source = k ∧ ∀ e ∈ left, e.source.address ≠ d.source.address := by
  simp only [freed, List.mem_map, List.mem_filter, Bool.not_eq_true', List.any_eq_false,
    Bool.not_eq_true, Identity.same_eq_false]
  exact exists_congr fun d => by rw [and_assoc, and_comm (b := d.source = k)]

section
variable (hs : Simple nodes es) (hi : i ∈ ready nodes es)
include hs hi

theorem mem_ready_rest : k ∈ ready ((nodes.filter fun j => !j.same i).map (release i es))
      (es.filter fun e => !e.target.same i) ↔
    k ∈ freed (es.filter (·.target.same i)) (es.filter fun e => !e.target.same i) ∨
      (k ∈ ready nodes es ∧ k.address ≠ i.address) := by
  obtain ⟨-, hfirst⟩ := mem_ready.mp hi
  rw [mem_ready, mem_freed, List.mem_map]
  constructor
  · rintro ⟨⟨j, hj, rfl⟩, hfree⟩
    obtain ⟨hj, hji⟩ := List.mem_filter.mp hj
    rw [Bool.not_eq_true', Identity.same_eq_false] at hji
    rw [release_address] at hfree
    by_cases hwaits : ∃ d ∈ es, d.source.address = j.address
    · obtain ⟨d, hd, ha⟩ := hwaits
      have ht : d.target.same i = true := by
        by_contra hnot
        exact hfree d (List.mem_filter.mpr ⟨hd, by simpa using hnot⟩) ha
      rw [release_of_freed hs hd ha (Identity.same_iff.mp ht) hfree]
      exact .inl ⟨d, List.mem_filter.mpr ⟨hd, ht⟩, rfl, ha ▸ hfree⟩
    · have hready : ∀ e ∈ es, e.source.address ≠ j.address := fun e he ha => hwaits ⟨e, he, ha⟩
      rw [release_of_free hready]
      exact .inr ⟨mem_ready.mpr ⟨hj, hready⟩, hji⟩
  · rintro (⟨d, hd, rfl, hfree⟩ | ⟨hk, hki⟩)
    · obtain ⟨hd, ht⟩ := List.mem_filter.mp hd
      obtain ⟨j, hj, ha⟩ := List.mem_map.mp (hs.ends_mem d hd).1
      have hji : j.address ≠ i.address := ha ▸ hfirst d hd
      refine ⟨⟨j, List.mem_filter.mpr ⟨hj, by simpa [Identity.same_eq_false] using hji⟩, ?_⟩, hfree⟩
      exact release_of_freed hs hd ha.symm (Identity.same_iff.mp ht) (ha ▸ hfree)
    · obtain ⟨hk, hready⟩ := mem_ready.mp hk
      refine ⟨⟨k, List.mem_filter.mpr ⟨hk, by simpa [Identity.same_eq_false] using hki⟩,
        release_of_free hready⟩, fun e he => hready e (List.mem_filter.mp he).1⟩

theorem ready_rest_perm {rest : List Identity} (hp : (i :: rest).Perm (ready nodes es)) :
    (freed (es.filter (·.target.same i)) (es.filter fun e => !e.target.same i) ++ rest).Perm
      (ready ((nodes.filter fun j => !j.same i).map (release i es))
        (es.filter fun e => !e.target.same i)) := by
  have haddresses : ((ready nodes es).map Identity.address).Nodup :=
    hs.nodes_nodup.sublist (List.filter_sublist.map _)
  obtain ⟨hfirst, hrest⟩ := List.nodup_cons.mp ((hp.map Identity.address).symm.nodup haddresses)
  refine (List.perm_ext_iff_of_nodup ?_ ?_).mpr fun k => ?_
  · refine List.nodup_append'.mpr ⟨?_, hrest.of_map _, fun k hk hr => ?_⟩
    · exact ((dependents_nodup hs i).of_map _).sublist (List.filter_sublist.map _)
    · obtain ⟨d, hd, rfl, -⟩ := mem_freed.mp hk
      have hready := hp.subset (List.mem_cons_of_mem _ hr)
      exact (mem_ready.mp hready).2 d (List.mem_filter.mp hd).1 rfl
  · exact ((simple_rest hs hi).nodes_nodup.of_map _).filter _
  · rw [List.mem_append, mem_ready_rest hs hi, ← hp.mem_iff, List.mem_cons]
    refine or_congr_right ⟨fun hk => ⟨.inr hk, fun ha => hfirst (ha ▸ List.mem_map_of_mem hk)⟩, ?_⟩
    rintro ⟨rfl | hk, ha⟩
    · exact absurd rfl ha
    · exact hk

end

-- ---------------------------------------------------------------------------
-- The whole run
-- ---------------------------------------------------------------------------

/-- What a run comes to: the order that is described by what is ready, or two objects of one
rank that were ready together. -/
structure Follows (steps : Nat) (nodes : List Identity) (es : List Edge)
    (x : Except Fault (List Identity)) : Prop where
  order : ∀ found, x = .ok found → found = (emitFrom steps nodes es).1
  untied : ∀ found, x = .ok found → Untied (queues steps nodes es)
  tie : ∀ fault, x = .error fault → ∃ queue ∈ queues steps nodes es, Tie queue fault

theorem Follows.ok (horder : found = (emitFrom steps nodes es).1)
    (hu : Untied (queues steps nodes es)) : Follows steps nodes es (.ok found) where
  order _ hx := Except.ok.inj hx ▸ horder
  untied _ _ := hu
  tie := by simp

theorem Follows.error (h : ∃ queue ∈ queues steps nodes es, Tie queue fault) :
    Follows steps nodes es (.error fault) where
  order := by simp
  untied := by simp
  tie _ hx := Except.error.inj hx ▸ h

theorem ready_mem_queues (es : List Edge) (hsteps : nodes.length ≤ steps) :
    ready nodes es = [] ∨ ready nodes es ∈ queues steps nodes es := by
  cases steps with
  | zero => exact .inl (by rw [List.length_eq_zero_iff.mp (Nat.le_zero.mp hsteps)]; rfl)
  | succ steps => exact .inr (by simp [queues])

theorem exists_tie (hsteps : nodes.length ≤ steps) (h : Tie (ready nodes es) fault) :
    ∃ queue ∈ queues steps nodes es, Tie queue fault := by
  rcases ready_mem_queues es hsteps with hempty | hmem
  · obtain ⟨i, hi, -⟩ := h
    rw [hempty] at hi
    cases hi
  · exact ⟨_, hmem, h⟩

theorem ready_ranks_nodup (hsteps : nodes.length ≤ steps) (h : Untied (queues steps nodes es)) :
    ((ready nodes es).map Identity.creationRank).Nodup := by
  rcases ready_mem_queues es hsteps with hempty | hmem
  · simp [hempty]
  · exact h _ hmem

theorem Follows.step (hl : least? (ready nodes es) = some i)
    (hranks : Untied (queues steps ((nodes.filter fun j => !j.same i).map (release i es))
      (es.filter fun e => !e.target.same i)) → ((ready nodes es).map Identity.creationRank).Nodup)
    (h : Follows steps ((nodes.filter fun j => !j.same i).map (release i es))
      (es.filter fun e => !e.target.same i) x) :
    Follows (steps + 1) nodes es (do return i :: (← x)) := by
  cases x with
  | error fault =>
    obtain ⟨queue, hqueue, htie⟩ := h.tie fault rfl
    exact .error ⟨queue, by simp [queues, hl, hqueue], htie⟩
  | ok found =>
    refine .ok ?_ ?_
    · rw [emitFrom_succ, hl, h.order found rfl]
    · have hrest := h.untied found rfl
      rw [queues, hl]
      exact List.forall_mem_cons.mpr ⟨hranks hrest, hrest⟩

theorem dependents_rest (hj : j.address ≠ i.address) :
    dependents (es.filter fun e => !e.target.same i) j = dependents es j := by
  rw [dependents, List.filter_filter]
  refine congrArg (List.map _) (List.filter_congr fun e _ => ?_)
  cases ht : e.target.same j with
  | false => rfl
  | true => simpa [Identity.same_eq_false, Identity.same_iff.mp ht] using hj

/-- The objects that are not taken out and the edges to them are a graph of their own, and
the run goes on as the run of that graph. -/
structure Tracks (all : List Identity) (whole : List Edge) (nodes : List Identity) (es : List Edge)
    (w : Waiting) : Prop where
  simple : Simple nodes es
  source_mem : ∀ e ∈ es, e.source.address ∈ all.map Identity.address
  dependents_eq : ∀ i, i.address ∈ nodes.map Identity.address →
    dependents whole i = dependents es i
  holds : Holds all es (ready nodes es) w

namespace Tracks

variable {all : List Identity} {whole : List Edge} {w next : Waiting} {rest : Array Identity}

theorem takes (h : Tracks all whole nodes es w) :
    Heap.Takes before w.queue (Heap.pop? before w.queue) :=
  Heap.pop?_takes before_lawful h.holds.isHeap

theorem pop_none (h : Tracks all whole nodes es w) (hp : Heap.pop? before w.queue = .ok none) :
    ready nodes es = [] :=
  (h.takes.empty hp ▸ h.holds.perm).nil_eq.symm

theorem pop_error (h : Tracks all whole nodes es w) (hp : Heap.pop? before w.queue = .error fault) :
    Tie (ready nodes es) fault := by
  have htie : Tie w.queue.toList fault := h.takes.clash fault hp
  exact htie.mono h.holds.perm.subset

section
variable (h : Tracks all whole nodes es w)
  (hp : Heap.pop? before w.queue = .ok (some (i, rest)))
include h hp

theorem pop_perm : (i :: rest.toList).Perm (ready nodes es) :=
  (h.takes.perm i rest hp).trans h.holds.perm

theorem least?_eq : least? (ready nodes es) = some i := by
  have hi : i ∈ ready nodes es := (h.pop_perm hp).subset (by simp)
  obtain ⟨j, hj⟩ : ∃ j, least? (ready nodes es) = some j := by
    rw [← Option.ne_none_iff_exists']
    intro hnone
    rw [least?_eq_none.mp hnone] at hi
    cases hi
  have hready := least?_mem hj
  rcases List.mem_cons.mp ((h.pop_perm hp).mem_iff.mpr hready) with rfl | hrest
  · exact hj
  · obtain ⟨hle, hsame⟩ := before_eq_false.mp (h.takes.first i rest hp j hrest)
    have hrank := linearLe_creationRank.antisymm _ _ hle (least?_le hj i hi)
    rw [hj, h.simple.eq_of_address (mem_ready.mp hi).1 (mem_ready.mp hready).1 (hsame hrank)]

theorem ranks_nodup (hrest : (rest.toList.map Identity.creationRank).Nodup) :
    ((ready nodes es).map Identity.creationRank).Nodup := by
  have hnodup := ((h.pop_perm hp).map Identity.address).symm.nodup
    (h.simple.nodes_nodup.sublist (List.filter_sublist.map _))
  refine ((h.pop_perm hp).map _).nodup (List.nodup_cons.mpr ⟨fun hi => ?_, hrest⟩)
  obtain ⟨j, hj, hrank⟩ := List.mem_map.mp hi
  have hsame := (before_eq_false.mp (h.takes.first i rest hp j hj)).2 hrank.symm
  exact (List.nodup_cons.mp hnodup).1 (hsame ▸ List.mem_map_of_mem hj)

theorem notify_queues : Queues all (es.filter fun e => !e.target.same i)
    (ready ((nodes.filter fun j => !j.same i).map (release i es))
      (es.filter fun e => !e.target.same i))
    ((dependents whole i).foldlM Waiting.notify ⟨w.counts, rest⟩) := by
  have hi := least?_mem (h.least?_eq hp)
  have hcounts := h.holds.counts.trans
    (Counts.ofEdges_perm (List.filter_append_perm (fun e : Edge => e.target.same i) es).symm)
  have hrest : Holds all _ rest.toList ⟨w.counts, rest⟩ :=
    ⟨hcounts, .refl _, h.takes.isHeap i rest hp⟩
  rw [h.dependents_eq i (List.mem_map_of_mem (mem_ready.mp hi).1)]
  exact (foldlM_notify_queues (dependents_nodup h.simple i)
    (fun d hd => h.source_mem d (List.mem_filter.mp hd).1) hrest).of_perm
      (ready_rest_perm h.simple hi (h.pop_perm hp))

theorem step (hnext : (dependents whole i).foldlM Waiting.notify ⟨w.counts, rest⟩ = .ok next) :
    Tracks all whole ((nodes.filter fun j => !j.same i).map (release i es))
      (es.filter fun e => !e.target.same i) next := by
  refine ⟨simple_rest h.simple (least?_mem (h.least?_eq hp)),
    fun e he => h.source_mem e (List.mem_filter.mp he).1, fun j hj => ?_,
    (h.notify_queues hp).holds next hnext⟩
  rw [map_release_addresses] at hj
  obtain ⟨hj, hji⟩ := List.mem_filter.mp hj
  rw [h.dependents_eq j hj, dependents_rest (bne_iff_ne.mp hji)]

theorem length_rest (hsteps : nodes.length ≤ steps + 1) :
    ((nodes.filter fun j => !j.same i).map (release i es)).length ≤ steps := by
  have hi := (mem_ready.mp (least?_mem (h.least?_eq hp))).1
  have hless : (nodes.filter fun j => !j.same i).length < nodes.length :=
    List.length_filter_lt_length_iff_exists.mpr ⟨i, hi, by simp⟩
  rw [List.length_map]
  omega

end

theorem start (hs : Simple nodes es) (hw : Waiting.start nodes es = .ok w) :
    Tracks nodes es nodes es w :=
  ⟨hs, fun e he => (hs.ends_mem e he).1, fun _ _ => rfl, (start_queues nodes es).holds w hw⟩

end Tracks

section
variable {all : List Identity} {whole : List Edge} {w : Waiting} {rest : Array Identity}

theorem drain_error (hp : Heap.pop? before w.queue = .error fault) :
    drain es (steps + 1) w = .error fault := by
  rw [drain, hp]
  rfl

theorem drain_none (hp : Heap.pop? before w.queue = .ok none) :
    drain es (steps + 1) w = .ok [] := by
  rw [drain, hp]
  rfl

theorem drain_succ (hp : Heap.pop? before w.queue = .ok (some (i, rest))) :
    drain es (steps + 1) w = (do
      let next ← (dependents es i).foldlM Waiting.notify ⟨w.counts, rest⟩
      return i :: (← drain es steps next)) := by
  rw [drain, hp]
  rfl

theorem drain_follows (steps : Nat) (hsteps : nodes.length ≤ steps)
    (h : Tracks all whole nodes es w) : Follows steps nodes es (drain whole steps w) := by
  induction steps generalizing nodes es w with
  | zero =>
    obtain rfl : nodes = [] := List.length_eq_zero_iff.mp (Nat.le_zero.mp hsteps)
    exact .ok rfl (by simp [queues, Untied])
  | succ steps ih =>
    cases hp : Heap.pop? before w.queue with
    | error fault =>
      rw [drain_error hp]
      exact .error (exists_tie hsteps (h.pop_error hp))
    | ok taken =>
      cases taken with
      | none =>
        have hempty := h.pop_none hp
        rw [drain_none hp]
        refine .ok ?_ ?_
        · rw [emitFrom_succ, hempty]
          rfl
        · simp [queues, hempty, Untied, least?]
      | some next =>
        obtain ⟨i, rest⟩ := next
        have hleast := h.least?_eq hp
        have hlength := h.length_rest hp hsteps
        rw [drain_succ hp]
        cases hnext : (dependents whole i).foldlM Waiting.notify ⟨w.counts, rest⟩ with
        | error fault =>
          obtain ⟨queue, hqueue, htie⟩ := exists_tie hlength ((h.notify_queues hp).tie fault hnext)
          exact .error ⟨queue, by simp [queues, hleast, hqueue], htie⟩
        | ok next =>
          refine (ih hlength (h.step hp hnext)).step hleast fun huntied => h.ranks_nodup hp ?_
          have hready := ready_rest_perm h.simple (least?_mem hleast) (h.pop_perm hp)
          have hboth := (hready.map _).symm.nodup (ready_ranks_nodup hlength huntied)
          rw [List.map_append] at hboth
          exact (List.nodup_append'.mp hboth).2.1

/-- The queue is empty after a step for each object, so more steps do nothing. -/
theorem drain_enough (steps : Nat) (hsteps : nodes.length ≤ steps)
    (h : Tracks all whole nodes es w) : drain whole (steps + 1) w = drain whole steps w := by
  induction steps generalizing nodes es w with
  | zero =>
    obtain rfl : nodes = [] := List.length_eq_zero_iff.mp (Nat.le_zero.mp hsteps)
    have hempty : w.queue = #[] := Array.toList_inj.mp h.holds.perm.eq_nil
    exact drain_none (by rw [hempty]; rfl)
  | succ steps ih =>
    cases hp : Heap.pop? before w.queue with
    | error fault => rw [drain_error hp, drain_error hp]
    | ok taken =>
      cases taken with
      | none => rw [drain_none hp, drain_none hp]
      | some next =>
        obtain ⟨i, rest⟩ := next
        rw [drain_succ hp, drain_succ hp]
        cases hnext : (dependents whole i).foldlM Waiting.notify ⟨w.counts, rest⟩ with
        | error fault => rfl
        | ok next =>
          have hmore := ih (h.length_rest hp hsteps) (h.step hp hnext)
          exact congrArg (fun x => do return i :: (← x)) hmore

end

theorem run_follows (hs : Simple nodes es) : Follows nodes.length nodes es (run nodes es) := by
  unfold run
  cases hw : Waiting.start nodes es with
  | error fault =>
    exact .error (exists_tie (Nat.le_refl _) ((start_queues nodes es).tie fault hw))
  | ok w => exact drain_follows nodes.length (Nat.le_refl _) (.start hs hw)

theorem run_enough (hs : Simple nodes es) (more : Nat) :
    (do drain es (nodes.length + more) (← Waiting.start nodes es)) = run nodes es := by
  unfold run
  cases hw : Waiting.start nodes es with
  | error fault => rfl
  | ok w =>
    show drain es (nodes.length + more) w = drain es nodes.length w
    induction more with
    | zero => rfl
    | succ more ih => exact (drain_enough _ (Nat.le_add_right ..) (.start hs hw)).trans ih

theorem order_emitted (hs : Simple nodes es) : Emitted nodes es (order nodes es).1 (order nodes es).2 :=
  emitFrom_emitted nodes.length nodes es (Nat.le_refl _) hs.nodes_nodup hs.ends_mem

end Emission

-- ---------------------------------------------------------------------------
-- Views
-- ---------------------------------------------------------------------------

namespace View

variable {v : View} (hs : Simple v.nodes v.retained)

theorem emit_result (v : View) : v.emit.result = (Emission.run v.nodes v.retained).bind fun order =>
    if order.length = v.nodes.length then .ok ⟨order, v.deferred⟩
    else .error (.unordered (sortIdentities (v.left order))) := by
  show (liftM (Emission.run v.nodes v.retained) >>= _ : Traced Plan).result = _
  rw [Traced.result_bind, Traced.lift_result]
  refine congrArg _ (funext fun order => ?_)
  split <;> rfl

include hs

theorem untied_iff_run :
    v.Untied ↔ Emission.run v.nodes v.retained = .ok (Emission.order v.nodes v.retained).1 := by
  have hfollows := Emission.run_follows hs
  refine ⟨fun hu => ?_, fun h => hfollows.untied _ h⟩
  cases hx : Emission.run v.nodes v.retained with
  | ok order => exact congrArg _ (hfollows.order order hx)
  | error fault =>
    obtain ⟨queue, hqueue, htie⟩ := hfollows.tie fault hx
    exact absurd (hu queue hqueue) htie.not_nodup

theorem emit_tied (hu : ¬ v.Untied) : ∃ fault, v.emit.result = .error fault ∧
    ∃ queue ∈ v.queues, Emission.Tie queue fault := by
  have hfollows := Emission.run_follows hs
  cases hx : Emission.run v.nodes v.retained with
  | ok order => exact absurd (hfollows.untied order hx) hu
  | error fault => exact ⟨fault, by rw [emit_result, hx]; rfl, hfollows.tie fault hx⟩

theorem length_order_iff : (Emission.order v.nodes v.retained).1.length = v.nodes.length ↔
    (Emission.order v.nodes v.retained).2 = [] := by
  have hlength := (Emission.order_emitted hs).perm.length_eq
  rw [List.length_map, List.length_map, List.length_append] at hlength
  rw [← List.length_eq_zero_iff]
  omega

theorem emit_untied (hu : v.Untied) : v.emit.result =
    if (Emission.order v.nodes v.retained).2 = [] then
      .ok ⟨(Emission.order v.nodes v.retained).1, v.deferred⟩
    else .error (.unordered (sortIdentities (v.left (Emission.order v.nodes v.retained).1))) := by
  rw [emit_result, (untied_iff_run hs).mp hu]
  exact if_congr (length_order_iff hs) rfl rfl

theorem emit_ok : v.emit.result = .ok p ↔ v.Untied ∧
    (Emission.order v.nodes v.retained).2 = [] ∧
      p = ⟨(Emission.order v.nodes v.retained).1, v.deferred⟩ := by
  by_cases hu : v.Untied
  · rw [emit_untied hs hu]
    split
    · rename_i hempty
      simp [hu, hempty, eq_comm]
    · rename_i hleft
      simp [hleft]
  · obtain ⟨fault, hfault, -⟩ := emit_tied hs hu
    simp [hfault, hu]

end View

end CatalogPlan
