import CatalogPlan.Event
import Mathlib.Data.List.Forall2

/-!
# Results of runs

A step that may fail is read as what it gives when it succeeds. The events of a
run do not bear on its result.
-/

namespace CatalogPlan

-- ---------------------------------------------------------------------------
-- Steps that may fail
-- ---------------------------------------------------------------------------

theorem isOk_iff {x : Except ε α} : x.isOk = true ↔ ∃ a, x = .ok a := by
  cases x <;> simp [Except.isOk, Except.toBool]

theorem isOk_map (x : Except ε α) (f : α → β) : (x.map f).isOk = x.isOk := by
  cases x <;> rfl

theorem toOption_eq_some {x : Except ε α} : x.toOption = some a ↔ x = .ok a := by
  cases x <;> simp [Except.toOption]

theorem toOption_bind (x : Except ε α) (f : α → Except ε β) :
    (x >>= f).toOption = x.toOption.bind fun a => (f a).toOption := by
  cases x <;> rfl

theorem toOption_map (x : Except ε α) (f : α → β) : (x.map f).toOption = x.toOption.map f := by
  cases x <;> rfl

theorem bind_ok {x : Except ε α} {f : α → Except ε β} :
    x >>= f = .ok b ↔ ∃ a, x = .ok a ∧ f a = .ok b := by
  cases x <;> simp [bind, Except.bind]

theorem pure_ok : (pure a : Except ε α) = .ok b ↔ a = b := by
  simp [pure, Except.pure]

theorem bind_error {x : Except ε α} {f : α → Except ε β} :
    x >>= f = .error e ↔ x = .error e ∨ ∃ a, x = .ok a ∧ f a = .error e := by
  cases x <;> simp [bind, Except.bind]

theorem map_ok {x : Except ε α} {f : α → β} : x.map f = .ok b ↔ ∃ a, x = .ok a ∧ f a = b := by
  cases x <;> simp [Except.map]

theorem map_error {x : Except ε α} {f : α → β} : x.map f = .error e ↔ x = .error e := by
  cases x <;> simp [Except.map]

theorem map_isOk {x : Except ε α} {f : α → β} : (∃ b, x.map f = .ok b) ↔ ∃ a, x = .ok a := by
  cases x <;> simp [Except.map]

theorem mapError_bind (x : Except ε α) (f : α → Except ε β) (g : ε → ε') :
    (x >>= f).mapError g = x.mapError g >>= fun a => (f a).mapError g := by
  cases x <;> rfl

theorem mapM_ok {f : α → Except ε β} {xs : List α} {ys : List β} :
    xs.mapM f = .ok ys ↔ List.Forall₂ (fun x y => f x = .ok y) xs ys := by
  induction xs generalizing ys with
  | nil => simp [pure, Except.pure, eq_comm]
  | cons x rest ih =>
    simp only [List.mapM_cons, bind_ok, pure_ok, List.forall₂_cons_left_iff]
    constructor
    · rintro ⟨y, hy, zs, hzs, rfl⟩
      exact ⟨y, zs, hy, ih.mp hzs, rfl⟩
    · rintro ⟨y, zs, hy, hzs, rfl⟩
      exact ⟨y, hy, zs, ih.mpr hzs, rfl⟩

theorem mapM_isOk {f : α → Except ε β} {xs : List α} :
    (∃ ys, xs.mapM f = .ok ys) ↔ ∀ x ∈ xs, ∃ y, f x = .ok y := by
  induction xs with
  | nil => simp [pure, Except.pure]
  | cons x rest ih =>
    simp only [List.mapM_cons, bind_ok, pure_ok, List.forall_mem_cons, ← ih]
    constructor
    · rintro ⟨_, y, hy, ys, hys, _⟩
      exact ⟨⟨y, hy⟩, ys, hys⟩
    · rintro ⟨⟨y, hy⟩, ys, hys⟩
      exact ⟨y :: ys, y, hy, ys, hys, rfl⟩

theorem mapM_congr {f g : α → Except ε β} {xs : List α} (h : ∀ x ∈ xs, f x = g x) :
    xs.mapM f = xs.mapM g := by
  induction xs with
  | nil => rfl
  | cons x rest ih => rw [List.mapM_cons, List.mapM_cons, h x (by simp), ih fun y hy => h y (by simp [hy])]

theorem mapM_error_iff {f : α → Except ε β} {xs : List α} :
    xs.mapM f = .error e ↔ (xs.filter fun x => !(f x).isOk).mapM f = .error e := by
  induction xs with
  | nil => simp
  | cons x rest ih =>
    cases hx : f x with
    | error e' =>
      rw [List.filter_cons_of_pos (by simp [hx, Except.isOk, Except.toBool])]
      simp [hx, bind, Except.bind]
    | ok y =>
      rw [List.filter_cons_of_neg (by simp [hx, Except.isOk, Except.toBool]), ← ih, List.mapM_cons, hx]
      cases rest.mapM f <;> simp [bind, Except.bind, pure, Except.pure]

theorem mapM_error {f : α → Except ε β} {xs : List α} : xs.mapM f = .error e ↔
    ∃ before x after, xs = before ++ x :: after ∧ (∀ b ∈ before, ∃ y, f b = .ok y) ∧ f x = .error e := by
  induction xs with
  | nil => simp [pure, Except.pure]
  | cons x rest ih =>
    rw [List.mapM_cons, bind_error]
    constructor
    · rintro (hx | ⟨y, hy, h⟩)
      · exact ⟨[], x, rest, rfl, by simp, hx⟩
      · obtain ⟨before, z, after, rfl, hbefore, hz⟩ := ih.mp <| by simpa [bind_error, pure, Except.pure] using h
        exact ⟨x :: before, z, after, rfl, List.forall_mem_cons.mpr ⟨⟨y, hy⟩, hbefore⟩, hz⟩
    · rintro ⟨before, z, after, heq, hbefore, hz⟩
      cases before with
      | nil =>
        obtain ⟨rfl, -⟩ := List.cons.inj heq
        exact .inl hz
      | cons b before =>
        obtain ⟨rfl, rfl⟩ := List.cons.inj heq
        obtain ⟨⟨y, hy⟩, hbefore⟩ := List.forall_mem_cons.mp hbefore
        refine .inr ⟨y, hy, bind_error.mpr (.inl (ih.mpr ⟨before, z, after, rfl, hbefore, hz⟩))⟩

/-- Steps of which each fails with a fault of its own or succeeds: the first that
has a fault decides. -/
theorem mapM_findSome? {f : α → Except ε β} (fault? : α → Option ε) (g : α → β)
    (hf : ∀ x, f x = (fault? x).elim (.ok (g x)) .error) (xs : List α) :
    xs.mapM f = (xs.findSome? fault?).elim (.ok (xs.map g)) .error := by
  induction xs with
  | nil => rfl
  | cons x rest ih =>
    rw [List.mapM_cons, hf, ih]
    cases hx : fault? x with
    | some e => simp [hx, bind, Except.bind]
    | none => cases hr : rest.findSome? fault? <;> simp [hx, hr, bind, Except.bind, pure, Except.pure]

theorem forall₂_mem_right {R : α → β → Prop} (h : List.Forall₂ R xs ys) (hy : y ∈ ys) :
    ∃ x ∈ xs, R x y := by
  induction h with
  | nil => simp at hy
  | cons hxy _ ih =>
    rcases List.mem_cons.mp hy with rfl | hy
    · exact ⟨_, by simp, hxy⟩
    · obtain ⟨x, hx, hR⟩ := ih hy
      exact ⟨x, by simp [hx], hR⟩

theorem forall₂_mem_left {R : α → β → Prop} (h : List.Forall₂ R xs ys) (hx : x ∈ xs) :
    ∃ y ∈ ys, R x y := by
  obtain ⟨y, hy, hR⟩ := forall₂_mem_right h.flip hx
  exact ⟨y, hy, hR⟩

-- ---------------------------------------------------------------------------
-- Runs
-- ---------------------------------------------------------------------------

namespace Traced

theorem ext {x y : Traced α} (he : x.events = y.events) (hr : x.result = y.result) : x = y := by
  cases x
  cases y
  simp_all

@[simp] theorem events_pure (a : α) : (pure a : Traced α).events = [] := rfl

theorem bind_of_ok {x : Traced α} (h : x.result = .ok a) (f : α → Traced β) :
    x >>= f = ⟨x.events ++ (f a).events, (f a).result⟩ := by
  obtain ⟨events, result⟩ := x
  obtain rfl : result = .ok a := h
  rfl

theorem bind_of_error {x : Traced α} (h : x.result = .error fault) (f : α → Traced β) :
    x >>= f = ⟨x.events, .error fault⟩ := by
  obtain ⟨events, result⟩ := x
  obtain rfl : result = .error fault := h
  rfl

instance : LawfulMonad Traced := by
  refine LawfulMonad.mk' Traced ?_ ?_ ?_
  · intro α x
    show x >>= pure ∘ id = x
    cases h : x.result with
    | ok a => rw [bind_of_ok h]; exact ext (by simp) h.symm
    | error fault => rw [bind_of_error h]; exact ext rfl h.symm
  · intro α β a f
    rw [bind_of_ok (result_pure a)]
    exact ext (by simp) rfl
  · intro α β γ x f g
    cases h : x.result with
    | error fault =>
      rw [bind_of_error h, bind_of_error h]
      exact bind_of_error rfl g
    | ok a =>
      rw [bind_of_ok h, bind_of_ok h]
      cases hf : (f a).result with
      | error fault => rw [bind_of_error hf, bind_of_error rfl]
      | ok b =>
        rw [bind_of_ok hf, bind_of_ok rfl]
        exact ext (List.append_assoc ..) rfl

theorem bind_ok {x : Traced α} {f : α → Traced β} :
    (x >>= f).result = .ok b ↔ ∃ a, x.result = .ok a ∧ (f a).result = .ok b := by
  rw [result_bind]
  exact CatalogPlan.bind_ok

theorem bind_error {x : Traced α} {f : α → Traced β} :
    (x >>= f).result = .error e ↔
      x.result = .error e ∨ ∃ a, x.result = .ok a ∧ (f a).result = .error e := by
  rw [result_bind]
  exact CatalogPlan.bind_error

theorem pure_ok : (pure a : Traced α).result = .ok b ↔ a = b :=
  CatalogPlan.pure_ok

@[simp] theorem emit_result (e : Event) : (emit e).result = .ok () := rfl

@[simp] theorem lift_result (x : Except Fault α) : (liftM x : Traced α).result = x := rfl

/-- What goes before a run does not matter to its result when it only reports. -/
theorem emit_bind (e : Event) (f : Unit → Traced β) : ((emit e) >>= f).result = (f ()).result := by
  rw [result_bind]
  rfl

theorem mapM_result (f : α → Traced β) (xs : List α) :
    (xs.mapM f).result = xs.mapM fun x => (f x).result := by
  induction xs with
  | nil => rfl
  | cons x rest ih =>
    simp only [List.mapM_cons, result_bind, ih]
    rfl

theorem forM_emit_result (f : α → Event) (xs : List α) :
    (xs.forM fun x => emit (f x)).result = .ok () := by
  induction xs with
  | nil => rfl
  | cons x rest ih =>
    show (emit (f x) >>= fun _ => rest.forM fun x => emit (f x)).result = _
    rw [emit_bind]
    exact ih

end Traced

end CatalogPlan
