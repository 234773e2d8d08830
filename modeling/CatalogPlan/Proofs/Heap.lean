import CatalogPlan.Heap
import CatalogPlan.Proofs.Event
import Mathlib.Order.Nat

/-!
# Heaps give the first entry

What is put into a heap comes out of it in order, as long as the comparison is that
of an order. Two entries without an order may be in one heap, but neither of them comes
out while the other is in it: a heap compares every entry with its parent.
-/

namespace CatalogPlan.Heap

variable {α ε : Type} {n : Nat} {before : α → α → Except ε Bool} {top i : Nat}

/-- The comparison of an order, which may fail for some entries. -/
structure Lawful (before : α → α → Except ε Bool) : Prop where
  asymm : ∀ {a b}, before a b = .ok true → before b a = .ok false
  trans : ∀ {a b c}, before b a = .ok false → before c b = .ok false → before c a = .ok false

def IsChild (c p : Nat) : Prop :=
  0 < c ∧ parent c = p

theorem isChild_parent (h : 0 < i) : IsChild i (parent i) :=
  ⟨h, rfl⟩

theorem IsChild.lt (h : IsChild c p) : p < c :=
  h.2 ▸ parent_lt h.1

theorem isChild_iff : IsChild c p ↔ c = 2 * p + 1 ∨ c = 2 * p + 2 := by
  unfold IsChild parent
  omega

theorem IsChild.unique (h : IsChild c p) (h' : IsChild c q) : p = q :=
  h.2.symm.trans h'.2

inductive Under (top : Nat) : Nat → Prop
  | refl : Under top top
  | child (h : Under top p) (hc : IsChild c p) : Under top c

theorem Under.le (h : Under top i) : top ≤ i := by
  induction h with
  | refl => exact Nat.le_refl _
  | child _ hc ih => exact ih.trans hc.lt.le

theorem Under.parent (h : Under top i) (hlt : top < i) : Under top (parent i) := by
  cases h with
  | refl => exact absurd hlt (Nat.lt_irrefl _)
  | child h hc => exact hc.2 ▸ h

theorem under_zero (i : Nat) : Under 0 i := by
  induction i using Nat.strongRecOn with
  | _ i ih =>
    rcases Nat.eq_zero_or_pos i with rfl | hi
    · exact .refl
    · exact .child (ih _ (parent_lt hi)) (isChild_parent hi)

-- ---------------------------------------------------------------------------
-- Entries in order
-- ---------------------------------------------------------------------------

def Ordered (before : α → α → Except ε Bool) (top : Nat) (entries : Vector α n) : Prop :=
  ∀ p c (hp : p < n) (hc : c < n), IsChild c p → top ≤ p → before entries[c] entries[p] = .ok false

/-- Entries are in order but for the one at a place, which may come before its parent. -/
structure Rising (before : α → α → Except ε Bool) (top : Nat) (entries : Vector α n) (i : Nat) :
    Prop where
  off : ∀ p c (hp : p < n) (hc : c < n), IsChild c p → c ≠ i → top ≤ p →
    before entries[c] entries[p] = .ok false
  around : ∀ p c (hp : p < n) (hc : c < n), IsChild i p → IsChild c i → top ≤ p →
    before entries[c] entries[p] = .ok false

/-- Entries are in order but for the one at a place, which may belong anywhere. -/
structure Sinking (before : α → α → Except ε Bool) (top : Nat) (entries : Vector α n) (i : Nat) :
    Prop where
  off : ∀ p c (hp : p < n) (hc : c < n), IsChild c p → c ≠ i → p ≠ i → top ≤ p →
    before entries[c] entries[p] = .ok false
  around : ∀ p c (hp : p < n) (hc : c < n), IsChild i p → IsChild c i → top ≤ p →
    before entries[c] entries[p] = .ok false

def Clash (before : α → α → Except ε Bool) (entries : Vector α n) (fault : ε) : Prop :=
  ∃ a ∈ entries, ∃ b ∈ entries, before a b = .error fault

/-- What putting entries in order comes to: the same entries in order, or a clash of two. -/
structure Arranges (before : α → α → Except ε Bool) (top : Nat) (entries : Vector α n)
    (x : Except ε (Vector α n)) : Prop where
  perm : ∀ found, x = .ok found → found.Perm entries
  ordered : ∀ found, x = .ok found → Ordered before top found
  clash : ∀ fault, x = .error fault → Clash before entries fault

theorem Arranges.of_perm {entries entries' : Vector α n} {x : Except ε (Vector α n)}
    (h : Arranges before top entries' x) (hp : entries'.Perm entries) :
    Arranges before top entries x where
  perm found hx := (h.perm found hx).trans hp
  ordered := h.ordered
  clash fault hx := by
    obtain ⟨a, ha, b, hb, hab⟩ := h.clash fault hx
    exact ⟨a, hp.mem_iff.mp ha, b, hp.mem_iff.mp hb, hab⟩

theorem Arranges.ok {entries : Vector α n} (h : Ordered before top entries) :
    Arranges before top entries (.ok entries) where
  perm _ hx := Except.ok.inj hx ▸ .refl _
  ordered _ hx := Except.ok.inj hx ▸ h
  clash := by simp

theorem Arranges.error {entries : Vector α n} (h : Clash before entries fault) :
    Arranges before top entries (.error fault) where
  perm := by simp
  ordered := by simp
  clash _ hx := Except.error.inj hx ▸ h

section
variable {entries : Vector α n} (hi : i < n)
include hi

theorem Rising.swap (h : Rising before top entries i) (hb : Lawful before) {q : Nat} (hq : q < n)
    (hiq : IsChild i q) (hle : top ≤ q) (hlt : before entries[i] entries[q] = .ok true) :
    Rising before top (entries.swap i q) q := by
  have hqi := hiq.lt
  constructor
  · intro p c hp hc hcp hne htop
    by_cases hci : c = i
    · subst hci
      obtain rfl := hcp.unique hiq
      simpa using hb.asymm hlt
    · simp only [Vector.getElem_swap, if_neg hci, if_neg hne]
      by_cases hpi : p = i
      · subst hpi
        simpa using h.around q c hq hc hiq hcp hle
      · by_cases hpq : p = q
        · subst hpq
          simpa [hpi] using hb.trans (hb.asymm hlt) (h.off p c hp hc hcp hci htop)
        · simpa [hpi, hpq] using h.off p c hp hc hcp hci htop
  · intro p c hp hc hqp hcq htop
    have hpq := hqp.lt
    have hgrand := h.off p q hp hq hqp hqi.ne htop
    simp only [Vector.getElem_swap, if_neg (hpq.trans hqi).ne, if_neg hpq.ne]
    by_cases hci : c = i
    · simpa [hci] using hgrand
    · simpa [hci, hcq.lt.ne'] using hb.trans hgrand (h.off q c hq hc hcq hci hle)

theorem rise_arranges (hb : Lawful before) (hu : Under top i) (h : Rising before top entries i) :
    Arranges before top entries (rise before top entries i hi) := by
  -- Every swap moves the entry up, so the induction is on its place.
  induction i using Nat.strongRecOn generalizing entries with
  | _ i ih =>
    rw [rise]
    split
    · rename_i htop
      have hiq := isChild_parent (Nat.zero_lt_of_lt htop)
      have hq := hiq.lt.trans hi
      have hle := (hu.parent htop).le
      cases hlt : before entries[i] entries[parent i] with
      | error fault =>
        exact .error ⟨_, Vector.getElem_mem hi, _, Vector.getElem_mem hq, hlt⟩
      | ok first =>
        cases first with
        | true =>
          exact (ih (parent i) hiq.lt hq (hu.parent htop) (h.swap hi hb hq hiq hle hlt)).of_perm
            (Vector.swap_perm hi hq)
        | false =>
          refine .ok fun p c hp hc hcp htop => ?_
          by_cases hci : c = i
          · subst hci
            obtain rfl := hcp.unique hiq
            exact hlt
          · exact h.off p c hp hc hcp hci htop
    · rename_i htop
      refine .ok fun p c hp hc hcp hle => h.off p c hp hc hcp ?_ hle
      rintro rfl
      exact htop (hle.trans_lt hcp.lt)

end

-- ---------------------------------------------------------------------------
-- Going down
-- ---------------------------------------------------------------------------

structure Chosen (before : α → α → Except ε Bool) (entries : Vector α n) (i : Nat)
    (c : { c : Nat // i < c ∧ c < n }) : Prop where
  isChild : IsChild c i
  first : ∀ d (hd : d < n), IsChild d i → d ≠ c.1 →
    before entries[d] (entries.get ⟨c.1, c.2.2⟩) = .ok false

theorem firstChild_ok (hb : Lawful before) {entries : Vector α n} {h : 2 * i + 1 < n}
    (hc : firstChild before entries i h = .ok c) : Chosen before entries i c := by
  unfold firstChild at hc
  split at hc
  · rename_i hr
    obtain ⟨first, hlt, hc⟩ := bind_ok.mp hc
    cases first with
    | true =>
      obtain rfl := pure_ok.mp hc
      refine ⟨isChild_iff.mpr (.inl rfl), fun d hd hdi hne => ?_⟩
      obtain rfl := (isChild_iff.mp hdi).resolve_left hne
      exact hb.asymm hlt
    | false =>
      obtain rfl := pure_ok.mp hc
      refine ⟨isChild_iff.mpr (.inr rfl), fun d hd hdi hne => ?_⟩
      obtain rfl := (isChild_iff.mp hdi).resolve_right hne
      exact hlt
  · rename_i hr
    obtain rfl := pure_ok.mp hc
    refine ⟨isChild_iff.mpr (.inl rfl), fun d hd hdi hne => ?_⟩
    obtain rfl := (isChild_iff.mp hdi).resolve_left hne
    exact absurd hd hr

theorem firstChild_error {entries : Vector α n} {h : 2 * i + 1 < n}
    (hc : firstChild before entries i h = .error fault) : Clash before entries fault := by
  unfold firstChild at hc
  split at hc
  · rename_i hr
    rcases bind_error.mp hc with hlt | ⟨first, -, hc⟩
    · exact ⟨_, Vector.getElem_mem h, _, Vector.getElem_mem hr, hlt⟩
    · cases first <;> cases hc
  · cases hc

theorem Sinking.swap {entries : Vector α n} (h : Sinking before top entries i) (hi : i < n)
    (hc : Chosen before entries i c) :
    Sinking before top (entries.swap i c.1 hi c.2.2) c := by
  obtain ⟨c, hlt, hcn⟩ := c
  obtain ⟨hci, hfirst⟩ := hc
  constructor
  · intro p d hp hd hdp hne hpc htop
    simp only [Vector.getElem_swap, if_neg hne, if_neg hpc]
    by_cases hdi : d = i
    · subst hdi
      simpa [hdp.lt.ne] using h.around p c hp hcn hdp hci htop
    · by_cases hpi : p = i
      · subst hpi
        have hchild : before entries[d] entries[c] = .ok false := hfirst d hd hdp hne
        simpa [hdi] using hchild
      · simpa [hdi, hpi] using h.off p d hp hd hdp hdi hpi htop
  · intro p d hp hd hcp hdc htop
    obtain rfl := hcp.unique hci
    have hdp := (hcp.lt.trans hdc.lt).ne'
    simpa [Vector.getElem_swap, hdp, hdc.lt.ne'] using h.off c d hcn hd hdc hdp hlt.ne' (htop.trans hlt.le)

theorem settle_arranges (hb : Lawful before) {entries : Vector α n} (hi : i < n)
    (hu : Under top i) (h : Sinking before top entries i) :
    Arranges before top entries (settle before top entries i hi) := by
  -- Every swap moves the entry down, so the induction is on the places below it.
  induction hk : n - i using Nat.strongRecOn generalizing entries i with
  | _ k ih =>
    rw [settle]
    split
    · rename_i hleft
      cases hc : firstChild before entries i hleft with
      | error fault => exact .error (firstChild_error hc)
      | ok c =>
        have hchosen := firstChild_ok hb hc
        refine (ih (n - c.1) ?_ c.2.2 (.child hu hchosen.isChild) (h.swap hi hchosen) rfl).of_perm
          (Vector.swap_perm hi c.2.2)
        have := c.2
        omega
    · rename_i hleaf
      refine rise_arranges hi hb hu ⟨fun p c hp hc hcp hne => h.off p c hp hc hcp hne ?_, h.around⟩
      rintro rfl
      have := isChild_iff.mp hcp
      omega

theorem settleAll_arranges (hb : Lawful before) {entries : Vector α n} (k : Nat) (hk : k ≤ n)
    (h : Ordered before k entries) : Arranges before 0 entries (settleAll before entries k hk) := by
  induction k generalizing entries with
  | zero => exact .ok h
  | succ k ih =>
    have hsettle : Arranges before k entries (settle before k entries k hk) := by
      refine settle_arranges hb hk .refl ⟨fun p c hp hc hcp _ hne htop => ?_, ?_⟩
      · exact h p c hp hc hcp (Nat.lt_of_le_of_ne htop hne.symm)
      · intro p c hp hc hkp _ htop
        exact absurd hkp.lt (Nat.not_lt.mpr htop)
    rw [settleAll]
    cases hs : settle before k entries k hk with
    | error fault => exact .error (hsettle.clash _ hs)
    | ok found => exact (ih _ (hsettle.ordered _ hs)).of_perm (hsettle.perm _ hs)

-- ---------------------------------------------------------------------------
-- Heaps
-- ---------------------------------------------------------------------------

def IsHeap (before : α → α → Except ε Bool) (heap : Array α) : Prop :=
  ∀ p c (hp : p < heap.size) (hc : c < heap.size), IsChild c p → before heap[c] heap[p] = .ok false

theorem IsHeap.first {heap : Array α} (hb : Lawful before) (h : IsHeap before heap)
    (hi : i < heap.size) (h0 : 0 < i) :
    before heap[i] heap[0] = .ok false := by
  induction i using Nat.strongRecOn with
  | _ i ih =>
    have hip := isChild_parent h0
    have hp := hip.lt.trans hi
    have hstep : before heap[i] heap[parent i] = .ok false := h _ i hp hi hip
    rcases Nat.eq_zero_or_pos (parent i) with heq | hpos
    · simpa [heq] using hstep
    · exact hb.trans (ih _ hip.lt hp hpos) hstep

structure Gives (before : α → α → Except ε Bool) (entries : List α) (x : Except ε (Array α)) :
    Prop where
  perm : ∀ heap, x = .ok heap → heap.toList.Perm entries
  isHeap : ∀ heap, x = .ok heap → IsHeap before heap
  clash : ∀ fault, x = .error fault → ∃ a ∈ entries, ∃ b ∈ entries, before a b = .error fault

theorem Gives.ok {heap : Array α} {entries : List α} (hp : heap.toList.Perm entries)
    (hi : IsHeap before heap) : Gives before entries (.ok heap) where
  perm _ hx := Except.ok.inj hx ▸ hp
  isHeap _ hx := Except.ok.inj hx ▸ hi
  clash := by simp

theorem Gives.error {entries : List α}
    (h : ∃ a ∈ entries, ∃ b ∈ entries, before a b = .error fault) :
    Gives before entries (.error fault) where
  perm := by simp
  isHeap := by simp
  clash _ hx := Except.error.inj hx ▸ h

theorem Arranges.gives {entries : Vector α n} {x : Except ε (Vector α n)}
    (h : Arranges before 0 entries x) (hp : entries.toList.Perm xs) :
    Gives before xs (do return (← x).toArray) := by
  cases x with
  | error fault =>
    obtain ⟨a, ha, b, hb, hab⟩ := h.clash _ rfl
    exact .error ⟨a, hp.mem_iff.mp (by simpa using ha), b, hp.mem_iff.mp (by simpa using hb), hab⟩
  | ok found =>
    refine .ok ((Vector.perm_iff_toList_perm.mp (h.perm _ rfl)).trans hp) fun p c hp hc hcp => ?_
    exact h.ordered _ rfl p c (by simpa using hp) (by simpa using hc) hcp (Nat.zero_le p)

theorem ofList_gives (hb : Lawful before) (xs : List α) : Gives before xs (ofList before xs) := by
  refine (settleAll_arranges hb _ _ fun p c hp hc hcp htop => ?_).gives (.refl _)
  -- The places from the middle on have no children.
  have := isChild_iff.mp hcp
  omega

theorem push_gives (hb : Lawful before) {heap : Array α} (h : IsHeap before heap) (x : α) :
    Gives before (x :: heap.toList) (push before heap x) := by
  refine (rise_arranges _ hb (under_zero _) ⟨fun p c hp hc hcp hne _ => ?_, ?_⟩).gives ?_
  · have hsize : c < heap.size := by
      simp only [Array.size_push] at hc
      omega
    simpa [Array.getElem_push, hsize, hcp.lt.trans hsize] using h p c (hcp.lt.trans hsize) hsize hcp
  · intro p c _ hc _ hcp _
    have := hcp.lt
    simp only [Array.size_push] at hc
    omega
  · simp

structure Takes (before : α → α → Except ε Bool) (heap : Array α)
    (x : Except ε (Option (α × Array α))) : Prop where
  empty : x = .ok none → heap.toList = []
  perm : ∀ a rest, x = .ok (some (a, rest)) → (a :: rest.toList).Perm heap.toList
  isHeap : ∀ a rest, x = .ok (some (a, rest)) → IsHeap before rest
  first : ∀ a rest, x = .ok (some (a, rest)) → ∀ b ∈ rest.toList, before b a = .ok false
  clash : ∀ fault, x = .error fault → ∃ a ∈ heap.toList, ∃ b ∈ heap.toList, before a b = .error fault

namespace Takes

theorem none {heap : Array α} (h : heap.toList = []) : Takes before heap (.ok none) where
  empty _ := h
  perm := by simp
  isHeap := by simp
  first := by simp
  clash := by simp

theorem some {heap rest : Array α} (hp : (a :: rest.toList).Perm heap.toList)
    (hi : IsHeap before rest) (hf : ∀ b ∈ rest.toList, before b a = .ok false) :
    Takes before heap (.ok (some (a, rest))) where
  empty := by simp
  perm _ _ hx := by
    obtain ⟨rfl, rfl⟩ := Prod.mk.inj (Option.some.inj (Except.ok.inj hx))
    exact hp
  isHeap _ _ hx := by
    obtain ⟨rfl, rfl⟩ := Prod.mk.inj (Option.some.inj (Except.ok.inj hx))
    exact hi
  first _ _ hx := by
    obtain ⟨rfl, rfl⟩ := Prod.mk.inj (Option.some.inj (Except.ok.inj hx))
    exact hf
  clash := by simp

theorem error {heap : Array α}
    (h : ∃ a ∈ heap.toList, ∃ b ∈ heap.toList, before a b = .error fault) :
    Takes before heap (.error fault) where
  empty := by simp
  perm := by simp
  isHeap := by simp
  first := by simp
  clash _ hx := Except.error.inj hx ▸ h

end Takes

theorem toList_lastFirst {heap : Array α} (h : 1 < heap.size) : ∃ xs : List α,
    heap.toList = getElem heap 0 (Nat.zero_lt_of_lt h) :: xs ∧ (lastFirst heap h).toList.Perm xs := by
  obtain ⟨l⟩ := heap
  cases l with
  | nil => simp at h
  | cons a xs =>
    cases xs with
    | nil => simp at h
    | cons b xs =>
      refine ⟨b :: xs, rfl, ?_⟩
      have hlast : (Array.mk (a :: b :: xs)).back = (b :: xs).getLast (by simp) := by
        simp [Array.back, List.getLast_eq_getElem]
      rw [lastFirst, Array.toList_set, Array.toList_pop, hlast]
      refine (List.perm_append_singleton ((b :: xs).getLast (by simp)) (b :: xs).dropLast).symm.trans ?_
      rw [List.dropLast_concat_getLast]

theorem IsHeap.first_of_mem {heap : Array α} {xs : List α} (hb : Lawful before)
    (h : IsHeap before heap) (hsize : 0 < heap.size) (hxs : heap.toList = heap[0] :: xs)
    (hm : b ∈ xs) : before b heap[0] = .ok false := by
  obtain ⟨i, hi, rfl⟩ := List.getElem_of_mem hm
  have hlen : i + 1 < heap.size := by
    rw [← Array.length_toList, hxs, List.length_cons]
    omega
  have hget : heap[i + 1] = xs[i] := by
    rw [← Array.getElem_toList]
    simp [hxs]
  exact hget ▸ h.first hb hlen (Nat.succ_pos i)

theorem dropFirst_gives (hb : Lawful before) {heap : Array α} (h : IsHeap before heap)
    (hsize : 1 < heap.size) {xs : List α}
    (hxs : (lastFirst heap hsize).toList.Perm xs) :
    Gives before xs (dropFirst before heap hsize) := by
  refine (settle_arranges hb _ .refl ⟨fun p c hp hc hcp hc0 hp0 _ => ?_, fun p c _ _ h0 => ?_⟩).gives hxs
  · rw [size_lastFirst] at hp hc
    simpa [lastFirst, Array.getElem_set, Ne.symm hc0, Ne.symm hp0] using
      h p c (by omega) (by omega) hcp
  · exact absurd h0.lt (Nat.not_lt_zero p)

theorem pop?_takes (hb : Lawful before) {heap : Array α} (h : IsHeap before heap) :
    Takes before heap (pop? before heap) := by
  unfold pop?
  split
  · rename_i hsize
    obtain ⟨xs, hxs, hrest⟩ := toList_lastFirst hsize
    have hgives := dropFirst_gives hb h hsize hrest
    cases hx : dropFirst before heap hsize with
    | error fault =>
      obtain ⟨a, ha, b, hb, hab⟩ := hgives.clash fault hx
      refine .error ?_
      rw [hxs]
      exact ⟨a, List.mem_cons_of_mem _ ha, b, List.mem_cons_of_mem _ hb, hab⟩
    | ok rest =>
      have hperm := hgives.perm rest hx
      refine .some ?_ (hgives.isHeap rest hx) fun b hm => ?_
      · rw [hxs]
        exact hperm.cons _
      · exact h.first_of_mem hb (by omega) hxs (hperm.mem_iff.mp hm)
  · rename_i hsize
    obtain ⟨l⟩ := heap
    cases l with
    | nil => exact .none rfl
    | cons a l =>
      obtain rfl : l = [] := by simpa using hsize
      exact .some (.refl _) (fun p c hp => absurd hp (Nat.not_lt_zero p)) (by simp)

end CatalogPlan.Heap
