import CatalogPlan.Emission
import CatalogPlan.Proofs.Acyclic

/-!
# The order of creation respects every edge

The queue of a run holds the objects that are ready, and the order can be described
without counts and without a heap: each step takes out the least of the objects that
wait for none of those that are left. The objects taken out stand after everything
they depend on, and those that stay behind each wait for another one that does, so
that each depends on a cycle; without cycles none stay behind.
-/

namespace CatalogPlan

def Before (xs : List α) (a b : α) : Prop :=
  List.Sublist [a, b] xs

theorem Before.cons {xs : List α} (h : Before xs a b) (x : α) : Before (x :: xs) a b :=
  List.Sublist.cons x h

theorem before_head {xs : List α} (h : b ∈ xs) (a : α) : Before (a :: xs) a b :=
  (List.singleton_sublist.mpr h).cons_cons a

theorem Before.exists_getElem? {xs : List α} (h : Before xs a b) :
    ∃ m n : Nat, xs[m]? = some a ∧ xs[n]? = some b ∧ m < n := by
  obtain ⟨before, after, rfl, ha, hb⟩ := List.cons_sublist_iff.mp h
  obtain ⟨m, hm⟩ := List.getElem?_of_mem ha
  obtain ⟨n, hn⟩ := List.getElem?_of_mem (List.singleton_sublist.mp hb)
  have hlt : m < before.length := (List.getElem?_eq_some_iff.mp hm).1
  refine ⟨m, before.length + n, ?_, ?_, by omega⟩
  · rw [List.getElem?_append_left hlt, hm]
  · rw [List.getElem?_append_right (by omega), Nat.add_sub_cancel_left, hn]

namespace Emission

open Acyclic (arcs)

-- ---------------------------------------------------------------------------
-- The order
-- ---------------------------------------------------------------------------

def ready (nodes : List Identity) (es : List Edge) : List Identity :=
  nodes.filter fun i => !es.any (·.source.same i)

def least? : List Identity → Option Identity
  | [] => none
  | i :: rest =>
    match least? rest with
    | none => some i
    | some j => if creationRankLe i.creationRank j.creationRank then some i else some j

/-- What becomes of an object when `i` is emitted: one that waited for nothing
else goes by the name that its edge gives it. -/
def release (i : Identity) (es : List Edge) (j : Identity) : Identity :=
  match es.find? (·.joins j i) with
  | some e => if es.any (fun k => k.source.same j && !k.target.same i) then j else e.source
  | none => j

/-- Takes out ready objects one by one. Gives the order and the objects that
are left waiting; one step for each object is enough. -/
def emitFrom : (steps : Nat) → List Identity → List Edge → List Identity × List Identity
  | 0, nodes, _ => ([], nodes)
  | steps + 1, nodes, es =>
    match least? (ready nodes es) with
    | none => ([], nodes)
    | some i =>
      let (order, waiting) := emitFrom steps ((nodes.filter fun j => !j.same i).map (release i es))
        (es.filter fun e => !e.target.same i)
      (i :: order, waiting)

def order (nodes : List Identity) (es : List Edge) : List Identity × List Identity :=
  emitFrom nodes.length nodes es

/-- The queues that a run goes through: what is ready before each step. -/
def queues : (steps : Nat) → List Identity → List Edge → List (List Identity)
  | 0, _, _ => []
  | steps + 1, nodes, es =>
    ready nodes es :: match least? (ready nodes es) with
      | none => []
      | some i => queues steps ((nodes.filter fun j => !j.same i).map (release i es))
          (es.filter fun e => !e.target.same i)

/-- No two objects that wait together have one rank. -/
def Untied (queues : List (List Identity)) : Prop :=
  ∀ queue ∈ queues, (queue.map Identity.creationRank).Nodup

-- ---------------------------------------------------------------------------
-- One step
-- ---------------------------------------------------------------------------

theorem least?_eq_none {is : List Identity} : least? is = none ↔ is = [] := by
  cases is with
  | nil => simp [least?]
  | cons i rest =>
    cases h : least? rest with
    | none => simp [least?, h]
    | some j =>
      simp only [least?, h, reduceCtorEq, iff_false]
      split <;> simp

theorem least?_mem {is : List Identity} (h : least? is = some i) : i ∈ is := by
  induction is with
  | nil => simp [least?] at h
  | cons k rest ih =>
    cases hr : least? rest with
    | none =>
      simp only [least?, hr, Option.some.injEq] at h
      simp [h]
    | some j =>
      simp only [least?, hr] at h
      split at h
      · obtain rfl := Option.some.inj h
        simp
      · obtain rfl := Option.some.inj h
        exact List.mem_cons_of_mem _ (ih hr)

theorem least?_le {is : List Identity} (h : least? is = some i) :
    ∀ j ∈ is, creationRankLe i.creationRank j.creationRank = true := by
  induction is generalizing i with
  | nil => simp [least?] at h
  | cons k rest ih =>
    intro j hj
    cases hr : least? rest with
    | none =>
      obtain rfl := least?_eq_none.mp hr
      obtain rfl : k = i := by simpa [least?] using h
      obtain rfl := List.mem_singleton.mp hj
      exact linearLe_creationRank.refl _
    | some m =>
      simp only [least?, hr] at h
      split at h
      · rename_i hle
        obtain rfl := Option.some.inj h
        rcases List.mem_cons.mp hj with rfl | hj
        · exact linearLe_creationRank.refl _
        · exact linearLe_creationRank.trans _ _ _ hle (ih hr j hj)
      · rename_i hle
        obtain rfl := Option.some.inj h
        rcases List.mem_cons.mp hj with rfl | hj
        · exact (linearLe_creationRank.total _ _).resolve_right hle
        · exact ih hr j hj

theorem mem_ready {nodes : List Identity} {es : List Edge} :
    i ∈ ready nodes es ↔ i ∈ nodes ∧ ∀ e ∈ es, e.source.address ≠ i.address := by
  simp [ready, Identity.same_eq_false]

@[simp] theorem release_address (i : Identity) (es : List Edge) (j : Identity) :
    (release i es j).address = j.address := by
  unfold release
  split
  · rename_i e he
    split
    · rfl
    · have hj : e.joins j i = true := by simpa using List.find?_some he
      exact congrArg Prod.fst (Edge.joins_iff.mp hj)
  · rfl

theorem release_of_waiting {es : List Edge} (he : e ∈ es) (hs : e.source.address = j.address)
    (ht : e.target.address ≠ i.address) : release i es j = j := by
  have hany : es.any (fun k => k.source.same j && !k.target.same i) = true :=
    List.any_eq_true.mpr ⟨e, he, by simp [Identity.same_iff.mpr hs, Identity.same_eq_false.mpr ht]⟩
  unfold release
  split
  · rw [if_pos hany]
  · rfl

theorem map_release_addresses (i : Identity) (es : List Edge) (nodes : List Identity) :
    (((nodes.filter fun j => !j.same i).map (release i es)).map Identity.address) =
      (nodes.map Identity.address).filter (· != i.address) := by
  simp only [List.map_map, List.filter_map]
  refine (List.map_congr_left fun j _ => release_address i es j).trans ?_
  rfl

theorem emitFrom_succ (steps : Nat) (nodes : List Identity) (es : List Edge) :
    emitFrom (steps + 1) nodes es =
      match least? (ready nodes es) with
      | none => ([], nodes)
      | some i =>
        (i :: (emitFrom steps ((nodes.filter fun j => !j.same i).map (release i es))
            (es.filter fun e => !e.target.same i)).1,
          (emitFrom steps ((nodes.filter fun j => !j.same i).map (release i es))
            (es.filter fun e => !e.target.same i)).2) := rfl

-- ---------------------------------------------------------------------------
-- The whole run
-- ---------------------------------------------------------------------------

/-- What is taken out and what is left of some objects: an object is taken out
after all it depends on, and one that is left depends on another one and has
kept its name. -/
structure Emitted (nodes : List Identity) (es : List Edge) (order waiting : List Identity) :
    Prop where
  perm : ((order ++ waiting).map Identity.address).Perm (nodes.map Identity.address)
  before : ∀ e ∈ es, e.source.address ∈ order.map Identity.address →
    Before (order.map Identity.address) e.target.address e.source.address
  stuck : ∀ j ∈ waiting, ∃ e ∈ es, e.source.address = j.address ∧
    e.target.address ∈ waiting.map Identity.address
  kept : waiting ⊆ nodes

section
variable {nodes : List Identity} {es : List Edge} (hi : i ∈ nodes)
  (hfree : ∀ e ∈ es, e.source.address ≠ i.address)
include hi hfree

theorem Emitted.step {order waiting : List Identity} (hn : (nodes.map Identity.address).Nodup)
    (h : Emitted ((nodes.filter fun j => !j.same i).map (release i es))
      (es.filter fun e => !e.target.same i) order waiting) : Emitted nodes es (i :: order) waiting := by
  refine ⟨?_, ?_, ?_, ?_⟩
  · have hperm := h.perm
    rw [map_release_addresses] at hperm
    refine (hperm.cons i.address).trans ?_
    rw [← List.Nodup.erase_eq_filter hn]
    exact (List.perm_cons_erase (List.mem_map_of_mem hi)).symm
  · intro e he hs
    have hs' := (List.mem_cons.mp hs).resolve_left (hfree e he)
    by_cases ht : e.target.address = i.address
    · rw [ht]
      exact before_head hs' _
    · exact (h.before e (by simp [he, Identity.same_eq_false, ht]) hs').cons _
  · intro j hj
    obtain ⟨e, he, hs, ht⟩ := h.stuck j hj
    exact ⟨e, (List.mem_filter.mp he).1, hs, ht⟩
  · intro j hj
    obtain ⟨k, hk, rfl⟩ := List.mem_map.mp (h.kept hj)
    obtain ⟨e, he, hs, -⟩ := h.stuck _ hj
    obtain ⟨he, ht⟩ := List.mem_filter.mp he
    rw [Bool.not_eq_true', Identity.same_eq_false] at ht
    rw [release_of_waiting he (hs.trans (release_address i es k)) ht]
    exact (List.mem_filter.mp hk).1

omit hi in
theorem rest_ends (hends : ∀ e ∈ es, e.source.address ∈ nodes.map Identity.address ∧
      e.target.address ∈ nodes.map Identity.address) :
    ∀ e ∈ es.filter fun e => !e.target.same i,
      e.source.address ∈ ((nodes.filter fun j => !j.same i).map (release i es)).map Identity.address ∧
        e.target.address ∈ ((nodes.filter fun j => !j.same i).map (release i es)).map Identity.address := by
  intro e he
  rw [map_release_addresses]
  simp only [List.mem_filter, Bool.not_eq_true', Identity.same_eq_false] at he
  simp only [List.mem_filter, bne_iff_ne]
  exact ⟨⟨(hends e he.1).1, hfree e he.1⟩, (hends e he.1).2, he.2⟩

end

theorem emitFrom_emitted (steps : Nat) (nodes : List Identity) (es : List Edge)
    (hsteps : nodes.length ≤ steps) (hn : (nodes.map Identity.address).Nodup)
    (hends : ∀ e ∈ es, e.source.address ∈ nodes.map Identity.address ∧
      e.target.address ∈ nodes.map Identity.address) :
    Emitted nodes es (emitFrom steps nodes es).1 (emitFrom steps nodes es).2 := by
  -- Every step takes one object out, so as many steps as objects are enough.
  induction steps generalizing nodes es with
  | zero =>
    obtain rfl : nodes = [] := List.length_eq_zero_iff.mp (Nat.le_zero.mp hsteps)
    exact ⟨.refl _, by simp [emitFrom], by simp [emitFrom], List.Subset.refl _⟩
  | succ steps ih =>
    rw [emitFrom_succ]
    cases hl : least? (ready nodes es) with
    | none =>
      refine ⟨.refl _, by simp, fun j hj => ?_, List.Subset.refl _⟩
      have hempty := least?_eq_none.mp hl
      have hnot : j ∉ ready nodes es := by simp [hempty]
      simp only [mem_ready, not_and, not_forall, not_not] at hnot
      obtain ⟨e, he, hs⟩ := hnot hj
      exact ⟨e, he, hs, (hends e he).2⟩
    | some i =>
      obtain ⟨hi, hfree⟩ := mem_ready.mp (least?_mem hl)
      have haddr := map_release_addresses i es nodes
      refine (ih _ _ ?_ ?_ (rest_ends hfree hends)).step hi hfree hn
      · rw [← List.length_map Identity.address, haddr, ← List.Nodup.erase_eq_filter hn,
          List.length_erase_of_mem (List.mem_map_of_mem hi), List.length_map]
        omega
      · rw [haddr]
        exact hn.filter _

/-- What is left depends on a cycle: what it needs is left too, and in a finite graph
that comes back to itself. -/
theorem Emitted.exists_cycle {order waiting : List Identity} (h : Emitted nodes es order waiting)
    (hj : j ∈ waiting) : ∃ c, Reach.Path (arcs es) j.address c ∧ Reach.OnCycle (arcs es) c := by
  let needed := (waiting.map Identity.address).filter (Reach.reaches (arcs es) j.address)
  have hneeded : ∀ {b}, b ∈ needed ↔ b ∈ waiting.map Identity.address ∧
      Reach.Path (arcs es) j.address b := by
    intro b
    simp only [needed, List.mem_filter, Reach.reaches_iff]
  have hself : j.address ∈ needed := hneeded.mpr ⟨List.mem_map_of_mem hj, .refl⟩
  have hstep : ∀ a ∈ needed, ∃ b ∈ needed, Reach.Step (arcs es) a b := by
    intro a ha
    obtain ⟨hwaiting, hpath⟩ := hneeded.mp ha
    obtain ⟨k, hk, rfl⟩ := List.mem_map.mp hwaiting
    obtain ⟨e, he, hs, ht⟩ := h.stuck k hk
    have hstep := hs ▸ Digraph.step_of_mem he
    exact ⟨_, hneeded.mpr ⟨ht, hpath.tail hstep⟩, hstep⟩
  obtain ⟨c, hc, hcycle⟩ := Reach.exists_onCycle (List.ne_nil_of_mem hself) hstep
  exact ⟨c, (hneeded.mp hc).2, hcycle⟩

theorem Emitted.waiting_eq_nil {order waiting : List Identity} (h : Emitted nodes es order waiting)
    (hc : Reach.Acyclic (arcs es)) : waiting = [] := by
  refine List.eq_nil_iff_forall_not_mem.mpr fun j hj => ?_
  obtain ⟨c, -, hcycle⟩ := h.exists_cycle hj
  exact hc c hcycle

-- ---------------------------------------------------------------------------
-- Objects that edges name as they are
-- ---------------------------------------------------------------------------

theorem map_release (hr : Closed nodes es) (i : Identity) :
    (nodes.filter fun j => !j.same i).map (release i es) = nodes.filter fun j => !j.same i := by
  refine (List.map_congr_left fun j hj => ?_).trans (List.map_id _)
  unfold release
  split
  · rename_i e he
    split
    · rfl
    · have hj' : e.joins j i = true := by simpa using List.find?_some he
      have ha : e.source.address = j.address := congrArg Prod.fst (Edge.joins_iff.mp hj')
      exact hr.eq_of_address (hr.source_mem e (List.mem_of_find?_eq_some he))
        (List.mem_filter.mp hj).1 ha
  · rfl

theorem closed_rest (hr : Closed nodes es) (hi : i ∈ ready nodes es) :
    Closed (nodes.filter fun j => !j.same i) (es.filter fun e => !e.target.same i) := by
  have hfree := (mem_ready.mp hi).2
  refine ⟨hr.nodes_nodup.sublist (List.filter_sublist.map _), fun e he => ?_, fun e he => ?_⟩
  · have hmem := (List.mem_filter.mp he).1
    refine List.mem_filter.mpr ⟨hr.source_mem e hmem, ?_⟩
    simpa [Identity.same_eq_false] using hfree e hmem
  · obtain ⟨hmem, ht⟩ := List.mem_filter.mp he
    exact List.mem_filter.mpr ⟨hr.target_mem e hmem, ht⟩

theorem emitFrom_perm (steps : Nat) (hr : Closed nodes es) :
    ((emitFrom steps nodes es).1 ++ (emitFrom steps nodes es).2).Perm nodes := by
  induction steps generalizing nodes es with
  | zero => exact .refl _
  | succ steps ih =>
    rw [emitFrom_succ]
    cases hl : least? (ready nodes es) with
    | none => exact .refl _
    | some i =>
      have hi := least?_mem hl
      simp only [map_release hr]
      refine ((ih (closed_rest hr hi)).cons i).trans ?_
      have hfilter : (nodes.filter fun j => !j.same i) = nodes.filter (· != i) := by
        refine List.filter_congr fun j hj => ?_
        rw [Bool.eq_iff_iff]
        simp only [Bool.not_eq_true', Identity.same_eq_false, bne_iff_ne]
        exact not_congr ⟨hr.eq_of_address hj (mem_ready.mp hi).1, fun h => h ▸ rfl⟩
      rw [hfilter, ← List.Nodup.erase_eq_filter hr.nodup]
      exact (List.perm_cons_erase (mem_ready.mp hi).1).symm

theorem order_acyclic (hr : Closed nodes es) (hc : Reach.Acyclic (arcs es)) :
    (order nodes es).2 = [] ∧ (order nodes es).1.Perm nodes ∧
      ∀ e ∈ es, Before (order nodes es).1 e.target e.source := by
  have hemitted := emitFrom_emitted nodes.length nodes es (Nat.le_refl _) hr.nodes_nodup hr.ends_mem
  have hnil : (order nodes es).2 = [] := hemitted.waiting_eq_nil hc
  have hperm : (order nodes es).1.Perm nodes := by
    have h : ((order nodes es).1 ++ (order nodes es).2).Perm nodes :=
      emitFrom_perm nodes.length hr
    rwa [hnil, List.append_nil] at h
  refine ⟨hnil, hperm, fun e he => ?_⟩
  have hs : e.source ∈ (order nodes es).1 := hperm.mem_iff.mpr (hr.source_mem e he)
  obtain ⟨l, hl, hmap⟩ := List.sublist_map_iff.mp
    (hemitted.before e he (List.mem_map_of_mem hs))
  obtain ⟨x, y, rfl⟩ : ∃ x y, l = [x, y] := by
    have hlen : l.length = 2 := by simpa using (congrArg List.length hmap).symm
    exact List.length_eq_two.mp hlen
  simp only [List.map_cons, List.map_nil, List.cons.injEq, and_true] at hmap
  have hx : x ∈ nodes := hperm.mem_iff.mp (hl.subset (by simp))
  have hy : y ∈ nodes := hperm.mem_iff.mp (hl.subset (by simp))
  rw [hr.eq_of_address (hr.target_mem e he) hx hmap.1,
    hr.eq_of_address (hr.source_mem e he) hy hmap.2]
  exact hl

-- ---------------------------------------------------------------------------
-- The queues
-- ---------------------------------------------------------------------------

theorem emitFrom_queues (steps : Nat) (nodes : List Identity) (es : List Edge) :
    (emitFrom steps nodes es).1 = (queues steps nodes es).filterMap least? := by
  induction steps generalizing nodes es with
  | zero => rfl
  | succ steps ih =>
    rw [emitFrom_succ, queues]
    cases hl : least? (ready nodes es) with
    | none => simp [hl]
    | some i => simp [hl, ih]

/-- Objects that wait together have different ranks where sort keys tell objects apart. -/
theorem untied_of_sortKeys (steps : Nat) (nodes : List Identity) (es : List Edge)
    (hn : (nodes.map Identity.address).Nodup)
    (hk : ∀ i ∈ nodes, ∀ j ∈ nodes, i.sortKey = j.sortKey → i.address = j.address) :
    Untied (queues steps nodes es) := by
  induction steps generalizing nodes es with
  | zero => simp [queues, Untied]
  | succ steps ih =>
    rw [queues]
    refine List.forall_mem_cons.mpr ⟨?_, ?_⟩
    · have hready : (ready nodes es).Nodup := (hn.of_map _).filter _
      refine hready.map_on fun i hi j hj hrank => ?_
      have hi := (mem_ready.mp hi).1
      have hj := (mem_ready.mp hj).1
      exact List.inj_on_of_nodup_map hn hi hj (hk i hi j hj (Identity.sortKey_of_creationRank hrank))
    · cases least? (ready nodes es) with
      | none => simp
      | some i =>
        refine ih _ _ ?_ fun j hj k hkmem hkey => ?_
        · rw [map_release_addresses]
          exact hn.filter _
        · -- Another name for an object changes neither its address nor its sort key.
          obtain ⟨j', hj', rfl⟩ := List.mem_map.mp hj
          obtain ⟨k', hk', rfl⟩ := List.mem_map.mp hkmem
          rw [Identity.sortKey_congr (release_address i es j'),
            Identity.sortKey_congr (release_address i es k')] at hkey
          rw [release_address, release_address]
          exact hk j' (List.mem_filter.mp hj').1 k' (List.mem_filter.mp hk').1 hkey

end Emission

def View.queues (v : View) : List (List Identity) :=
  Emission.queues v.nodes.length v.nodes v.retained

def View.Untied (v : View) : Prop :=
  Emission.Untied v.queues

theorem View.untied_of_digraph {v : View} (hd : Digraph v.nodes v.retained) : v.Untied :=
  Emission.untied_of_sortKeys _ _ _ hd.nodes_nodup fun i hi j hj =>
    Identity.address_of_sortKey (hd.named i hi) (hd.named j hj)

-- ---------------------------------------------------------------------------
-- Plans
-- ---------------------------------------------------------------------------

namespace Plan

theorem position?_eq {p : Plan} (hn : (p.order.map Identity.address).Nodup)
    (h : p.order[k]? = some i) : p.position? i = some k := by
  have hmem : (i, k) ∈ p.order.zipIdx.reverse := by
    rw [List.mem_reverse, List.mem_zipIdx_iff_getElem?]
    exact h
  unfold position?
  cases hf : p.order.zipIdx.reverse.find? fun q => q.1.same i with
  | none => exact absurd (Identity.same_refl i) (List.find?_eq_none.mp hf _ hmem)
  | some found =>
    obtain ⟨j, n⟩ := found
    have hj := List.mem_of_find?_eq_some hf
    rw [List.mem_reverse, List.mem_zipIdx_iff_getElem?] at hj
    have hs : j.same i = true := by simpa using List.find?_some hf
    have hnk : n = k := by
      have hn' : (p.order.map Identity.address)[n]? = some i.address := by
        rw [List.getElem?_map, hj, Option.map_some, Identity.same_iff.mp hs]
      have hk' : (p.order.map Identity.address)[k]? = some i.address := by
        rw [List.getElem?_map, h, Option.map_some]
      exact (List.getElem?_inj (List.getElem?_eq_some_iff.mp hn').1 hn).mp (hn'.trans hk'.symm)
    simp [hnk]

end Plan

end CatalogPlan
