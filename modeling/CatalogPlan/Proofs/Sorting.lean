import CatalogPlan.Identity
import Mathlib.Data.List.Basic

/-!
# Sorted lists

The comparisons of keys are linear orders. A sorted list is in order, and when
different elements have different keys it depends only on the elements.
-/

namespace CatalogPlan

structure LinearLe (le : α → α → Bool) : Prop where
  total : ∀ a b, le a b = true ∨ le b a = true
  trans : ∀ a b c, le a b = true → le b c = true → le a c = true
  antisymm : ∀ a b, le a b = true → le b a = true → a = b

theorem LinearLe.refl {le : α → α → Bool} (h : LinearLe le) (a : α) : le a a = true := by
  rcases h.total a a with ha | ha <;> exact ha

-- ---------------------------------------------------------------------------
-- The orders of keys
-- ---------------------------------------------------------------------------

theorem lexLe_iff [BEq α] [LawfulBEq α] {leFirst lt : α → α → Bool} {leSecond : β → β → Bool}
    (ha : LinearLe leFirst) (hlt : ∀ a b, lt a b = (leFirst a b && a != b)) {x y : α × β} :
    lexLe lt leSecond x y = true ↔
      leFirst x.1 y.1 = true ∧ (x.1 = y.1 → leSecond x.2 y.2 = true) := by
  by_cases h : x.1 = y.1
  · simp [lexLe, hlt, h, ha.refl]
  · simp [lexLe, hlt, h]

/-- Pairs are in a linear order when the first component is compared by the
strict part of one and the second by another. -/
theorem LinearLe.lex [BEq α] [LawfulBEq α] {leFirst lt : α → α → Bool} {leSecond : β → β → Bool}
    (ha : LinearLe leFirst) (hb : LinearLe leSecond)
    (hlt : ∀ a b, lt a b = (leFirst a b && a != b)) : LinearLe (lexLe lt leSecond) := by
  have hle : ∀ x y, lexLe lt leSecond x y = true ↔
      leFirst x.1 y.1 = true ∧ (x.1 = y.1 → leSecond x.2 y.2 = true) := fun x y => lexLe_iff ha hlt
  refine ⟨?_, ?_, ?_⟩
  · intro x y
    simp only [hle]
    by_cases h : x.1 = y.1
    · rcases hb.total x.2 y.2 with hxy | hyx
      · exact .inl ⟨h ▸ ha.refl _, fun _ => hxy⟩
      · exact .inr ⟨h ▸ ha.refl _, fun _ => hyx⟩
    · rcases ha.total x.1 y.1 with hxy | hyx
      · exact .inl ⟨hxy, fun e => absurd e h⟩
      · exact .inr ⟨hyx, fun e => absurd e.symm h⟩
  · intro x y z
    simp only [hle]
    rintro ⟨hxy, hxy'⟩ ⟨hyz, hyz'⟩
    refine ⟨ha.trans _ _ _ hxy hyz, fun e => ?_⟩
    have hy : x.1 = y.1 := ha.antisymm _ _ hxy (e ▸ hyz)
    exact hb.trans _ _ _ (hxy' hy) (hyz' (hy ▸ e))
  · intro x y
    simp only [hle]
    rintro ⟨hxy, hxy'⟩ ⟨hyx, hyx'⟩
    have h := ha.antisymm _ _ hxy hyx
    exact Prod.ext h (hb.antisymm _ _ (hxy' h) (hyx' h.symm))

theorem textLe_iff {a b : String} : textLe a b = true ↔ a ≤ b := by
  simp only [textLe, Bool.or_eq_true, decide_eq_true_eq, beq_iff_eq]
  constructor
  · rintro (h | rfl)
    · exact String.not_lt.mp (String.lt_asymm h)
    · exact String.le_refl _
  · intro h
    by_cases hba : b ≤ a
    · exact .inr (String.le_antisymm h hba)
    · exact .inl (String.not_le.mp hba)

theorem linearLe_text : LinearLe textLe := by
  refine ⟨?_, ?_, ?_⟩
  · intro a b
    simpa only [textLe_iff] using String.le_total a b
  · intro a b c
    simp only [textLe_iff]
    exact String.le_trans
  · intro a b
    simp only [textLe_iff]
    exact String.le_antisymm

theorem textLt_eq (a b : String) : textLt a b = (textLe a b && a != b) := by
  rw [Bool.eq_iff_iff]
  simp only [textLt, textLe, Bool.and_eq_true, Bool.or_eq_true, decide_eq_true_eq, beq_iff_eq,
    bne_iff_ne]
  constructor
  · intro h
    exact ⟨.inl h, String.ne_of_lt h⟩
  · rintro ⟨h | h, hne⟩
    · exact h
    · exact absurd h hne

theorem linearLe_sortKey : LinearLe sortKeyLe :=
  .lex linearLe_text linearLe_text textLt_eq

theorem linearLe_nat : LinearLe fun a b : Nat => decide (a ≤ b) :=
  ⟨by simpa using Nat.le_total, by simpa using fun _ _ _ => Nat.le_trans,
    by simpa using fun _ _ => Nat.le_antisymm⟩

theorem linearLe_creationRank : LinearLe creationRankLe := by
  refine .lex linearLe_nat linearLe_sortKey fun a b => ?_
  rw [Bool.eq_iff_iff]
  simp [Nat.lt_iff_le_and_ne]

theorem linearLe_edgeKey : LinearLe edgeKeyLe :=
  .lex linearLe_sortKey linearLe_sortKey fun _ _ => rfl

def dependencyKeyLe : (String × String) × String → (String × String) × String → Bool :=
  lexLe (fun a b => sortKeyLe a b && a != b) textLe

theorem linearLe_dependencyKey : LinearLe dependencyKeyLe :=
  .lex linearLe_sortKey linearLe_text fun _ _ => rfl

-- ---------------------------------------------------------------------------
-- Sorted lists
-- ---------------------------------------------------------------------------

theorem insertBy_pairwise {le : α → α → Bool} (htotal : ∀ a b, le a b = true ∨ le b a = true)
    (htrans : ∀ a b c, le a b = true → le b c = true → le a c = true) (x : α)
    (h : xs.Pairwise fun a b => le a b = true) :
    (insertBy le x xs).Pairwise fun a b => le a b = true := by
  induction xs with
  | nil => simp [insertBy]
  | cons y rest ih =>
    obtain ⟨hy, hrest⟩ := List.pairwise_cons.mp h
    unfold insertBy
    split
    · rename_i hxy
      refine List.pairwise_cons.mpr ⟨?_, h⟩
      intro z hz
      rcases List.mem_cons.mp hz with rfl | hz
      · exact hxy
      · exact htrans _ _ _ hxy (hy z hz)
    · rename_i hxy
      refine List.pairwise_cons.mpr ⟨?_, ih hrest⟩
      intro z hz
      rcases List.mem_cons.mp ((insertBy_perm le x rest).mem_iff.mp hz) with rfl | hz
      · exact (htotal z y).resolve_left hxy
      · exact hy z hz

theorem insertBy_filter {le : α → α → Bool}
    (htrans : ∀ a b c, le a b = true → le b c = true → le a c = true) (p : α → Bool) (x : α)
    (h : xs.Pairwise fun a b => le a b = true) :
    (insertBy le x xs).filter p = if p x then insertBy le x (xs.filter p) else xs.filter p := by
  induction xs with
  | nil => cases hp : p x <;> simp [insertBy, hp]
  | cons y rest ih =>
    obtain ⟨hy, hrest⟩ := List.pairwise_cons.mp h
    by_cases hxy : le x y = true
    · -- What comes after `y` comes after `x` too.
      have hfront : insertBy le x ((y :: rest).filter p) = x :: (y :: rest).filter p := by
        cases hf : (y :: rest).filter p with
        | nil => rfl
        | cons z zs =>
          have hz : z ∈ (y :: rest).filter p := hf ▸ List.mem_cons_self
          have hle : le x z = true := by
            rcases List.mem_cons.mp (List.mem_filter.mp hz).1 with rfl | hz
            · exact hxy
            · exact htrans _ _ _ hxy (hy z hz)
          simp [insertBy, hle]
      rw [insertBy, if_pos hxy, List.filter_cons, hfront]
    · rw [insertBy, if_neg hxy, List.filter_cons, ih hrest, List.filter_cons]
      cases hpx : p x <;> cases hpy : p y <;> simp [insertBy, hxy]

section
variable {le : κ → κ → Bool} {key : α → κ} {xs ys : List α}

theorem sortOn_perm (le : κ → κ → Bool) (key : α → κ) (xs : List α) :
    (sortOn le key xs).Perm xs :=
  sortBy_perm _ xs

@[simp] theorem mem_sortOn : a ∈ sortOn le key xs ↔ a ∈ xs :=
  (sortOn_perm le key xs).mem_iff

theorem sortOn_pairwise (h : LinearLe le) (key : α → κ) (xs : List α) :
    (sortOn le key xs).Pairwise fun a b => le (key a) (key b) = true := by
  unfold sortOn
  induction xs with
  | nil => exact .nil
  | cons x rest ih =>
    refine insertBy_pairwise ?_ ?_ x ih
    · exact fun a b => h.total (key a) (key b)
    · exact fun a b c => h.trans (key a) (key b) (key c)

theorem sortOn_strict (h : LinearLe le) (hkey : ∀ a ∈ xs, ∀ b ∈ xs, key a = key b → a = b)
    (hn : xs.Nodup) : (sortOn le key xs).Pairwise fun a b =>
      le (key a) (key b) = true ∧ key a ≠ key b := by
  have hnodup : (sortOn le key xs).Nodup := (sortOn_perm le key xs).symm.nodup hn
  refine ((sortOn_pairwise h key xs).and hnodup).imp_of_mem ?_
  intro a b ha hb hab
  exact ⟨hab.1, fun hk => hab.2 (hkey a (mem_sortOn.mp ha) b (mem_sortOn.mp hb) hk)⟩

theorem sortOn_unique (h : LinearLe le) (hkey : ∀ a ∈ xs, ∀ b ∈ xs, key a = key b → a = b)
    (hp : xs.Perm ys) (hs : ys.Pairwise fun a b => le (key a) (key b) = true) :
    sortOn le key xs = ys := by
  refine List.Perm.eq_of_pairwise ?_ (sortOn_pairwise h key xs) hs
    ((sortOn_perm le key xs).trans hp)
  intro a b ha hb hab hba
  exact hkey a (mem_sortOn.mp ha) b (hp.mem_iff.mpr hb) (h.antisymm _ _ hab hba)

theorem sortOn_congr (h : LinearLe le) (hkey : ∀ a ∈ xs, ∀ b ∈ xs, key a = key b → a = b)
    (hp : xs.Perm ys) : sortOn le key xs = sortOn le key ys :=
  sortOn_unique h hkey (hp.trans (sortOn_perm le key ys).symm) (sortOn_pairwise h key ys)

theorem sortOn_map (le : κ → κ → Bool) (key : α → κ) (f : β → α) (xs : List β) :
    sortOn le key (xs.map f) = (sortOn le (fun b => key (f b)) xs).map f := by
  have hinsert : ∀ (x : β) (ys : List β), insertBy (fun a b => le (key a) (key b)) (f x) (ys.map f) =
      (insertBy (fun a b => le (key (f a)) (key (f b))) x ys).map f := by
    intro x ys
    induction ys with
    | nil => rfl
    | cons y rest ih =>
      simp only [List.map_cons, insertBy, ih]
      split <;> rfl
  unfold sortOn
  induction xs with
  | nil => rfl
  | cons x rest ih => rw [List.map_cons, sortBy, ih, hinsert, sortBy]

/-- Elements left out do not bear on the order of the others. -/
theorem sortOn_filter (h : LinearLe le) (key : α → κ) (p : α → Bool) (xs : List α) :
    (sortOn le key xs).filter p = sortOn le key (xs.filter p) := by
  induction xs with
  | nil => rfl
  | cons x rest ih =>
    have hinsert := insertBy_filter (fun a b c => h.trans (key a) (key b) (key c)) p x
      (sortOn_pairwise h key rest)
    unfold sortOn at ih hinsert ⊢
    rw [sortBy, hinsert, ih, List.filter_cons]
    split <;> rfl
end

end CatalogPlan
