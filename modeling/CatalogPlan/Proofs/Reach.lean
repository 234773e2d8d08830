import CatalogPlan.Reach
import Mathlib.Data.Fintype.Card
import Mathlib.Data.List.Nodup
import Mathlib.Data.Set.Finite.List
import Mathlib.Logic.Relation

/-!
# Reachability is what paths lead to

The search finds exactly the points at the end of a path, and the classes are
those of points on a common closed path. Nothing depends on the order in which
arcs and points are listed, but for the order of the classes.
-/

namespace CatalogPlan.Reach

variable {α : Type} {arcs : List (α × α)} {points : List α} {a b c : α}

def Step (arcs : List (α × α)) (a b : α) : Prop :=
  (a, b) ∈ arcs

abbrev Path (arcs : List (α × α)) : α → α → Prop :=
  Relation.ReflTransGen (Step arcs)

def OnCycle (arcs : List (α × α)) (a : α) : Prop :=
  Relation.TransGen (Step arcs) a a

def Acyclic (arcs : List (α × α)) : Prop :=
  ∀ a, ¬ OnCycle arcs a

-- ---------------------------------------------------------------------------
-- Closed paths
-- ---------------------------------------------------------------------------

theorem Path.mono {more : List (α × α)} (h : arcs ⊆ more) (hp : Path arcs a b) : Path more a b :=
  hp.lift id fun _ _ hs => h hs

theorem OnCycle.mono {more : List (α × α)} (h : arcs ⊆ more) (hc : OnCycle arcs a) :
    OnCycle more a :=
  hc.lift id fun _ _ hs => h hs

theorem Acyclic.mono {more : List (α × α)} (h : arcs ⊆ more) (ha : Acyclic more) : Acyclic arcs :=
  fun a hc => ha a (hc.mono h)

theorem onCycle_of_step (hs : Step arcs a b) (hp : Path arcs b a) : OnCycle arcs a :=
  Relation.TransGen.head' hs hp

theorem OnCycle.step (h : OnCycle arcs a) : ∃ b, Step arcs a b ∧ Path arcs b a :=
  Relation.TransGen.head'_iff.mp h

theorem Path.restrict {less : List (α × α)} (h : Path arcs a b)
    (hs : ∀ x y, Path arcs a x → Step arcs x y → Path arcs y b → Step less x y) :
    Path less a b := by
  induction h using Relation.ReflTransGen.head_induction_on with
  | refl => exact .refl
  | head hac hcb ih =>
    exact (ih fun x y hcx hxy hyb => hs x y (hcx.head hac) hxy hyb).head (hs _ _ .refl hac hcb)

theorem OnCycle.restrict {less : List (α × α)} (h : OnCycle arcs a)
    (hs : ∀ x y, Path arcs a x → Step arcs x y → Path arcs y a → Step less x y) :
    OnCycle less a := by
  obtain ⟨b, hab, hba⟩ := h.step
  refine onCycle_of_step (hs a b .refl hab hba) (hba.restrict ?_)
  exact fun x y hbx hxy hya => hs x y (hbx.head hab) hxy hya

/-- A path to a point need not leave it. -/
theorem Path.avoid {less : List (α × α)} (h : Path arcs a b)
    (hs : ∀ x y, Step arcs x y → x ≠ b → Step less x y) : Path less a b := by
  induction h using Relation.ReflTransGen.head_induction_on with
  | refl => exact .refl
  | @head x y hxy _ ih =>
    by_cases hx : x = b
    · rw [hx]
    · exact ih.head (hs x y hxy hx)

theorem acyclic_of_rank (rank : α → Nat) (h : ∀ arc ∈ arcs, rank arc.2 < rank arc.1) :
    Acyclic arcs := by
  have hpath : ∀ {a b}, Relation.TransGen (Step arcs) a b → rank b < rank a := by
    intro a b hab
    induction hab with
    | single hs => exact h _ hs
    | tail _ hs ih => exact (h _ hs).trans ih
  exact fun a hc => Nat.lt_irrefl _ (hpath hc)

/-- When every point has an arc to another one of them, some lie on a cycle. -/
theorem exists_onCycle (hne : points ≠ []) (h : ∀ a ∈ points, ∃ b ∈ points, Step arcs a b) :
    ∃ a ∈ points, OnCycle arcs a := by
  by_contra hno
  let after (x y : {a // a ∈ points}) : Prop := Relation.TransGen (Step arcs) y.1 x.1
  have : IsTrans {a // a ∈ points} after := ⟨fun _ _ _ hxy hyz => hyz.trans hxy⟩
  have : Std.Irrefl after := ⟨fun x hx => hno ⟨x.1, x.2, hx⟩⟩
  have : Finite {a // a ∈ points} := List.finite_toSet points
  have hwf : WellFounded after := Finite.wellFounded_of_trans_of_irrefl after
  have hall : ∀ x : {a // a ∈ points}, False := by
    intro x
    induction x using hwf.induction with
    | _ x ih =>
      obtain ⟨b, hb, hs⟩ := h x.1 x.2
      exact ih ⟨b, hb⟩ (.single hs)
  obtain ⟨a, ha⟩ := List.exists_mem_of_ne_nil _ hne
  exact hall ⟨a, ha⟩

def Mutual (arcs : List (α × α)) (a b : α) : Prop :=
  Path arcs a b ∧ Path arcs b a

theorem Mutual.refl (arcs : List (α × α)) (a : α) : Mutual arcs a a :=
  ⟨.refl, .refl⟩

theorem Mutual.symm (h : Mutual arcs a b) : Mutual arcs b a :=
  ⟨h.2, h.1⟩

theorem Mutual.trans (hab : Mutual arcs a b) (hbc : Mutual arcs b c) : Mutual arcs a c :=
  ⟨hab.1.trans hbc.1, hbc.2.trans hab.2⟩

theorem Mutual.onCycle (hm : Mutual arcs a b) (h : OnCycle arcs a) : OnCycle arcs b :=
  (Relation.TransGen.trans_right hm.2 h).trans_left hm.1

variable [DecidableEq α]

-- ---------------------------------------------------------------------------
-- The search
-- ---------------------------------------------------------------------------

theorem mem_targets : b ∈ targets arcs a ↔ Step arcs a b := by
  simp only [targets, List.mem_filterMap, Option.ite_none_right_eq_some, Option.some.injEq,
    Prod.exists, Step]
  constructor
  · rintro ⟨_, _, h, rfl, rfl⟩
    exact h
  · intro h
    exact ⟨a, b, h, rfl, rfl⟩

theorem search_sound (h : b ∈ search arcs steps pending seen) :
    b ∈ seen ∨ ∃ a ∈ pending, Path arcs a b := by
  induction steps generalizing pending seen with
  | zero => exact .inl h
  | succ steps ih =>
    cases pending with
    | nil => exact .inl h
    | cons a pending =>
      unfold search at h
      split at h
      · rcases ih h with hb | ⟨c, hc, hp⟩
        · exact .inl hb
        · exact .inr ⟨c, by simp [hc], hp⟩
      · rcases ih h with hb | ⟨c, hc, hp⟩
        · rcases List.mem_cons.mp hb with rfl | hb
          · exact .inr ⟨b, by simp, .refl⟩
          · exact .inl hb
        · rcases List.mem_append.mp hc with hc | hc
          · exact .inr ⟨a, by simp, hp.head (mem_targets.mp hc)⟩
          · exact .inr ⟨c, by simp [hc], hp⟩

def unseen (arcs : List (α × α)) (seen : List α) : List (α × α) :=
  arcs.filter fun arc => decide (arc.1 ∉ seen)

theorem length_unseen_cons (arcs : List (α × α)) (h : a ∉ seen) :
    (unseen arcs (a :: seen)).length + (targets arcs a).length = (unseen arcs seen).length := by
  induction arcs with
  | nil => rfl
  | cons arc rest ih =>
    by_cases ha : arc.1 = a
    · simp_all [unseen, targets]
      omega
    · by_cases hs : arc.1 ∈ seen <;> simp_all [unseen, targets]
      omega

/-- With enough steps the result holds the start and is closed under arcs. -/
theorem search_closed (arcs : List (α × α)) (steps : Nat) (pending seen : List α)
    (hsteps : pending.length + (unseen arcs seen).length ≤ steps)
    (hseen : ∀ a ∈ seen, ∀ b, Step arcs a b → b ∈ seen ∨ b ∈ pending) :
    (∀ a ∈ seen, a ∈ search arcs steps pending seen) ∧
      (∀ a ∈ pending, a ∈ search arcs steps pending seen) ∧
      ∀ a ∈ search arcs steps pending seen, ∀ b, Step arcs a b →
        b ∈ search arcs steps pending seen := by
  -- A step takes one pending point away or trades unseen arcs for pending points.
  induction steps generalizing pending seen with
  | zero =>
    cases pending with
    | nil => exact ⟨fun _ h => h, by simp, by simpa [search] using hseen⟩
    | cons => simp at hsteps
  | succ steps ih =>
    cases pending with
    | nil => exact ⟨fun _ h => h, by simp, by simpa [search] using hseen⟩
    | cons a pending =>
      simp only [List.length_cons] at hsteps
      unfold search
      split
      · rename_i ha
        obtain ⟨h1, h2, h3⟩ := ih pending seen (by omega) (by
          intro x hx y hy
          rcases hseen x hx y hy with h | h
          · exact .inl h
          · rcases List.mem_cons.mp h with rfl | h
            · exact .inl ha
            · exact .inr h)
        refine ⟨h1, ?_, h3⟩
        intro x hx
        rcases List.mem_cons.mp hx with rfl | hx
        · exact h1 x ha
        · exact h2 x hx
      · rename_i ha
        have hlen := length_unseen_cons arcs ha
        obtain ⟨h1, h2, h3⟩ := ih (targets arcs a ++ pending) (a :: seen)
          (by simp only [List.length_append]; omega) (by
          intro x hx y hy
          rcases List.mem_cons.mp hx with rfl | hx
          · exact .inr (by simp [mem_targets.mpr hy])
          · rcases hseen x hx y hy with h | h
            · exact .inl (by simp [h])
            · rcases List.mem_cons.mp h with rfl | h
              · exact .inl (by simp)
              · exact .inr (by simp [h]))
        refine ⟨fun x hx => h1 x (by simp [hx]), ?_, h3⟩
        intro x hx
        rcases List.mem_cons.mp hx with rfl | hx
        · exact h1 x (by simp)
        · exact h2 x (by simp [hx])

theorem mem_reachable : b ∈ reachable arcs a ↔ Path arcs a b := by
  constructor
  · intro h
    rcases search_sound h with h | ⟨c, hc, hp⟩
    · simp at h
    · simpa [List.mem_singleton.mp hc] using hp
  · intro h
    obtain ⟨-, hstart, hclosed⟩ := search_closed arcs (arcs.length + 1) [a] []
      (by simp [unseen]; omega) (by simp)
    induction h with
    | refl => exact hstart a (by simp)
    | tail _ hstep ih => exact hclosed _ ih _ hstep

theorem reaches_iff : reaches arcs a b = true ↔ Path arcs a b := by
  simp [reaches, mem_reachable]

-- ---------------------------------------------------------------------------
-- Classes
-- ---------------------------------------------------------------------------

def classOf (arcs : List (α × α)) (points : List α) (a : α) : List α :=
  points.filter fun b => reaches arcs a b && reaches arcs b a

theorem mem_classOf : b ∈ classOf arcs points a ↔ b ∈ points ∧ Mutual arcs a b := by
  simp [classOf, reaches_iff, Mutual]

theorem classOf_eq (h : Mutual arcs a b) : classOf arcs points a = classOf arcs points b := by
  refine List.filter_congr fun c _ => ?_
  rw [Bool.eq_iff_iff]
  simp only [Bool.and_eq_true, reaches_iff]
  exact ⟨fun hc => h.symm.trans hc, fun hc => h.trans hc⟩

theorem mutual?_eq (arcs : List (α × α)) (points : List α) (a : α) : mutual? (closure arcs points) a
    (reachable arcs a) = classOf arcs points a := by
  simp only [mutual?, closure, classOf, List.filterMap_map]
  induction points with
  | nil => rfl
  | cons b rest ih =>
    by_cases h : b ∈ reachable arcs a ∧ a ∈ reachable arcs b
    · simp_all [reaches]
    · by_cases hb : b ∈ reachable arcs a <;> simp_all [reaches]

def addClass (arcs : List (α × α)) (points : List α) (found : List (List α)) (a : α) :
    List (List α) :=
  if found.any (a ∈ ·) then found else found ++ [classOf arcs points a]

theorem components_eq (arcs : List (α × α)) (points : List α) :
    components arcs points = points.foldl (addClass arcs points) [] := by
  have h : ∀ ps found, (closure arcs ps).foldl
      (fun found p => if found.any (p.1 ∈ ·) then found
        else found ++ [mutual? (closure arcs points) p.1 p.2]) found =
      ps.foldl (addClass arcs points) found := by
    intro ps
    induction ps with
    | nil => exact fun _ => rfl
    | cons a rest ih =>
      intro found
      simp only [closure, List.map_cons, List.foldl_cons] at ih ⊢
      rw [ih]
      congr 1
      simp only [addClass]
      rw [← mutual?_eq]
      rfl
  exact h points []

/-- The classes found so far are those of the points gone through, each once. -/
structure Classified (arcs : List (α × α)) (points done : List α) (found : List (List α)) :
    Prop where
  classes : ∀ c ∈ found, ∃ a ∈ done, c = classOf arcs points a
  covered : ∀ a ∈ done, ∃ c ∈ found, a ∈ c
  nodup : found.Nodup

theorem Classified.add {done : List α} {found : List (List α)} (h : Classified arcs points done found)
    (ha : a ∈ points) : Classified arcs points (done ++ [a]) (addClass arcs points found a) := by
  unfold addClass
  split
  · rename_i hany
    obtain ⟨c, hc, hac⟩ := List.any_eq_true.mp hany
    refine ⟨fun c hc => ?_, fun b hb => ?_, h.nodup⟩
    · obtain ⟨b, hb, rfl⟩ := h.classes c hc
      exact ⟨b, by simp [hb], rfl⟩
    · rcases List.mem_append.mp hb with hb | hb
      · exact h.covered b hb
      · exact ⟨c, hc, by simpa [List.mem_singleton.mp hb] using hac⟩
  · rename_i hany
    have hself : a ∈ classOf arcs points a := mem_classOf.mpr ⟨ha, .refl ..⟩
    have hnew : classOf arcs points a ∉ found := fun hc =>
      hany (List.any_eq_true.mpr ⟨_, hc, by simpa using hself⟩)
    refine ⟨fun c hc => ?_, fun b hb => ?_, ?_⟩
    · rcases List.mem_append.mp hc with hc | hc
      · obtain ⟨b, hb, rfl⟩ := h.classes c hc
        exact ⟨b, by simp [hb], rfl⟩
      · exact ⟨a, by simp, List.mem_singleton.mp hc⟩
    · rcases List.mem_append.mp hb with hb | hb
      · obtain ⟨c, hc, hbc⟩ := h.covered b hb
        exact ⟨c, by simp [hc], hbc⟩
      · rw [List.mem_singleton.mp hb]
        exact ⟨_, by simp, hself⟩
    · exact h.nodup.append (List.nodup_singleton _) (by simpa using hnew)

theorem classified_components (arcs : List (α × α)) (points : List α) :
    Classified arcs points points (components arcs points) := by
  have h : ∀ rest done found, rest ⊆ points → Classified arcs points done found →
      Classified arcs points (done ++ rest) (rest.foldl (addClass arcs points) found) := by
    intro rest
    induction rest with
    | nil => intro done found _ h; simpa using h
    | cons a rest ih =>
      intro done found hsub h
      have := ih (done ++ [a]) _ (fun x hx => hsub (by simp [hx])) (h.add (hsub (by simp)))
      simpa using this
  rw [components_eq]
  exact h points [] [] (fun _ hx => hx) ⟨by simp, by simp, List.nodup_nil⟩

theorem mem_components {c : List α} :
    c ∈ components arcs points ↔ ∃ a ∈ points, c = classOf arcs points a := by
  have h := classified_components arcs points
  constructor
  · exact h.classes c
  · rintro ⟨a, ha, rfl⟩
    obtain ⟨c, hc, hac⟩ := h.covered a ha
    obtain ⟨b, -, rfl⟩ := h.classes c hc
    rw [classOf_eq (mem_classOf.mp hac).2.symm]
    exact hc

theorem nodup_components (arcs : List (α × α)) (points : List α) :
    (components arcs points).Nodup :=
  (classified_components arcs points).nodup

theorem mem_cyclicComponents {c : List α} : c ∈ cyclicComponents arcs points ↔
    ∃ a ∈ points, c = classOf arcs points a ∧ 1 < c.length := by
  simp only [cyclicComponents, List.mem_filter, mem_components, decide_eq_true_eq]
  constructor
  · rintro ⟨⟨a, ha, rfl⟩, hlen⟩
    exact ⟨a, ha, rfl, hlen⟩
  · rintro ⟨a, ha, rfl, hlen⟩
    exact ⟨⟨a, ha, rfl⟩, hlen⟩

theorem nodup_cyclicComponents (arcs : List (α × α)) (points : List α) :
    (cyclicComponents arcs points).Nodup :=
  (nodup_components arcs points).filter _

theorem one_lt_length_classOf (hn : points.Nodup) (ha : a ∈ points) :
    1 < (classOf arcs points a).length ↔ ∃ b ∈ points, b ≠ a ∧ Mutual arcs a b := by
  have hself : a ∈ classOf arcs points a := mem_classOf.mpr ⟨ha, .refl ..⟩
  constructor
  · intro hlen
    by_contra hno
    have hall : ∀ b ∈ classOf arcs points a, b = a := by
      intro b hb
      by_contra hne
      exact hno ⟨b, (mem_classOf.mp hb).1, hne, (mem_classOf.mp hb).2⟩
    have hsub : classOf arcs points a ⊆ [a] := fun b hb => List.mem_singleton.mpr (hall b hb)
    have hnodup : (classOf arcs points a).Nodup := hn.filter _
    exact absurd hlen (Nat.not_lt.mpr (hnodup.length_le_of_subset hsub))
  · rintro ⟨b, hb, hne, hm⟩
    have hsub : [a, b] ⊆ classOf arcs points a := by
      intro x hx
      rcases List.mem_cons.mp hx with rfl | hx
      · exact hself
      · exact List.mem_singleton.mp hx ▸ mem_classOf.mpr ⟨hb, hm⟩
    have hnodup : [a, b].Nodup := by simpa using hne.symm
    exact hnodup.length_le_of_subset hsub

theorem mem_flatten_cyclicComponents (hn : points.Nodup)
    (hends : ∀ x y, Step arcs x y → x ∈ points ∧ y ∈ points) (hloop : ∀ x, ¬ Step arcs x x) :
    a ∈ (cyclicComponents arcs points).flatten ↔ OnCycle arcs a := by
  simp only [List.mem_flatten, mem_cyclicComponents]
  constructor
  · rintro ⟨c, ⟨x, hx, rfl, hlen⟩, ha⟩
    obtain ⟨hap, hxa⟩ := mem_classOf.mp ha
    rw [classOf_eq hxa, one_lt_length_classOf hn hap] at hlen
    obtain ⟨b, -, hne, hab, hba⟩ := hlen
    rcases Relation.ReflTransGen.cases_head hab with h | ⟨y, hs, hp⟩
    · exact absurd h.symm hne
    · exact onCycle_of_step hs (hp.trans hba)
  · intro h
    obtain ⟨b, hs, hp⟩ := h.step
    obtain ⟨ha, hb⟩ := hends _ _ hs
    refine ⟨_, ⟨a, ha, rfl, (one_lt_length_classOf hn ha).mpr ⟨b, hb, ?_, .single hs, hp⟩⟩,
      mem_classOf.mpr ⟨ha, .refl ..⟩⟩
    rintro rfl
    exact hloop _ hs

end CatalogPlan.Reach
