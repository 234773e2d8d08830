import CatalogPlan.Proofs.Payload
import Mathlib.Algebra.Order.Field.Power
import Mathlib.Data.List.Nodup
import Mathlib.Data.List.Perm.Subperm
import Mathlib.Data.Rat.Cast.Order
import Mathlib.Tactic.Linarith

/-!
# Equality of values

On values with floats in their one form and every field name once, equality is an
equivalence. Numbers are equal where they stand for one point of the extended line,
on which every `nan` is a point of its own.
-/

namespace CatalogPlan

-- ---------------------------------------------------------------------------
-- Floats
-- ---------------------------------------------------------------------------

namespace Binary64

def Regular : Binary64 → Prop
  | .finite _ m q => m < twos 53 ∧ -1074 ≤ q ∧ (m < twos 52 → q = -1074)
  | .infinite _ | .nan _ => True

def magnitude (m : Nat) (q : Int) : ℚ :=
  m * 2 ^ q

def signed (neg : Bool) (a : ℚ) : ℚ :=
  if neg then -a else a

theorem magnitude_nonneg (m : Nat) (q : Int) : 0 ≤ magnitude m q :=
  mul_nonneg m.cast_nonneg (zpow_nonneg (by decide) q)

theorem magnitude_eq_zero : magnitude m q = 0 ↔ m = 0 := by
  have hpow : (2 : ℚ) ^ q ≠ 0 := zpow_ne_zero q (by decide)
  rw [magnitude, mul_eq_zero, or_iff_left hpow, Nat.cast_eq_zero]

theorem magnitude_eq_nat : magnitude m q = (k : Nat) ↔
    m * twos q.toNat = k * twos (-q).toNat := by
  have hpow : (2 : ℚ) ^ (-q).toNat ≠ 0 := pow_ne_zero _ (by decide)
  have hsplit : (2 : ℚ) ^ q * 2 ^ (-q).toNat = 2 ^ q.toNat := by
    rw [← zpow_natCast, ← zpow_natCast, ← zpow_add₀ (by decide)]
    congr 1
    omega
  rw [magnitude, ← mul_left_inj' hpow, mul_assoc, hsplit]
  exact_mod_cast Iff.rfl

theorem significand_of_magnitude (hle : q ≤ q') (h : magnitude m q = magnitude m' q') :
    m = m' * 2 ^ (q' - q).toNat := by
  have hpow : (2 : ℚ) ^ q ≠ 0 := zpow_ne_zero q (by decide)
  have hsplit : (2 : ℚ) ^ q' = 2 ^ (q' - q).toNat * 2 ^ q := by
    rw [← zpow_natCast, ← zpow_add₀ (by decide)]
    congr 1
    omega
  rw [magnitude, magnitude, hsplit, ← mul_assoc, mul_left_inj' hpow] at h
  exact_mod_cast h

theorem magnitude_inj (hx : (finite neg m q).Regular) (hy : (finite neg' m' q').Regular)
    (h : magnitude m q = magnitude m' q') : m = m' ∧ q = q' := by
  have hforth : ∀ {neg neg' m m' q q'}, (finite neg m q).Regular → (finite neg' m' q').Regular →
      magnitude m q = magnitude m' q' → ¬ q < q' := by
    intro neg neg' m m' q q' hx hy h hlt
    have hm := significand_of_magnitude hlt.le h
    have hlow : twos 52 ≤ m' := by
      by_contra hsmall
      have := hy.2.2 (by omega)
      have := hx.2.1
      omega
    have htwo : 2 ≤ 2 ^ (q' - q).toNat := by
      calc 2 = 2 ^ 1 := rfl
        _ ≤ 2 ^ (q' - q).toNat := Nat.pow_le_pow_right (by decide) (by omega)
    have hlarge : twos 53 ≤ m := by
      calc twos 53 = twos 52 * 2 := rfl
        _ ≤ m' * 2 ^ (q' - q).toNat := Nat.mul_le_mul hlow htwo
        _ = m := hm.symm
    exact absurd hx.1 (by omega)
  have hq : q = q' := by
    have := hforth hx hy h
    have := hforth hy hx h.symm
    omega
  subst hq
  exact ⟨by simpa using significand_of_magnitude le_rfl h, rfl⟩

theorem signed_eq_signed (ha : 0 ≤ a) (hb : 0 ≤ b) : signed neg a = signed neg' b ↔
    a = b ∧ (a = 0 ∨ neg = neg') := by
  have hopposite : ∀ {a b : ℚ}, 0 ≤ a → 0 ≤ b → (a = -b ↔ a = b ∧ a = 0) := by
    intro a b ha hb
    constructor
    · intro h
      exact ⟨by linarith, by linarith⟩
    · rintro ⟨rfl, h⟩
      linarith
  cases neg <;> cases neg'
  · simp [signed]
  · simpa [signed] using hopposite ha hb
  · simpa [signed, neg_eq_iff_eq_neg] using hopposite ha hb
  · simp [signed]

theorem eqInt_finite : (finite neg m q).eqInt n = true ↔ signed neg (magnitude m q) = n := by
  have hn : (n : ℚ) = signed (decide (n < 0)) (n.natAbs : ℕ) := by
    by_cases h : n < 0
    · rw [decide_eq_true h, signed, if_pos rfl]
      rw [← Int.cast_natCast, ← Int.cast_neg]
      exact congrArg _ (by omega)
    · rw [decide_eq_false h, signed, if_neg (by decide)]
      rw [← Int.cast_natCast]
      exact congrArg _ (by omega)
  rw [hn, signed_eq_signed (magnitude_nonneg ..) (Nat.cast_nonneg _), magnitude_eq_nat,
    magnitude_eq_zero]
  simp only [eqInt, Bool.and_eq_true, Bool.or_eq_true, beq_iff_eq]

theorem eqFloat_finite (hx : (finite neg m q).Regular) (hy : (finite neg' m' q').Regular) :
    (finite neg m q).eqFloat (finite neg' m' q') = true ↔
      signed neg (magnitude m q) = signed neg' (magnitude m' q') := by
  rw [signed_eq_signed (magnitude_nonneg ..) (magnitude_nonneg ..), magnitude_eq_zero]
  simp only [eqFloat, isZero, Bool.or_eq_true, Bool.and_eq_true, beq_iff_eq, finite.injEq]
  constructor
  · rintro (⟨rfl, rfl, rfl⟩ | ⟨rfl, rfl⟩)
    · exact ⟨rfl, .inr rfl⟩
    · rw [magnitude_eq_zero.mpr rfl, magnitude_eq_zero.mpr rfl]
      exact ⟨rfl, .inl rfl⟩
  · rintro ⟨h, hsign⟩
    obtain ⟨rfl, rfl⟩ := magnitude_inj hx hy h
    rcases hsign with rfl | rfl
    · exact .inr ⟨rfl, rfl⟩
    · exact .inl ⟨rfl, rfl, rfl⟩

end Binary64

-- ---------------------------------------------------------------------------
-- Numbers
-- ---------------------------------------------------------------------------

theorem forall₂_imp_mem {R S : α → β → Prop} (h : ∀ a ∈ as, ∀ b ∈ bs, R a b → S a b)
    (hall : List.Forall₂ R as bs) : List.Forall₂ S as bs := by
  rw [List.forall₂_iff_zip] at hall ⊢
  refine ⟨hall.1, fun hab => ?_⟩
  obtain ⟨ha, hb⟩ := List.of_mem_zip hab
  exact h _ ha _ hb (hall.2 hab)

theorem forall₂_trans_mem {R : α → β → Prop} {S : β → γ → Prop} {T : α → γ → Prop}
    (h : ∀ a ∈ as, ∀ b ∈ bs, ∀ c ∈ cs, R a b → S b c → T a c) (hab : List.Forall₂ R as bs)
    (hbc : List.Forall₂ S bs cs) : List.Forall₂ T as cs := by
  induction hab generalizing cs with
  | nil =>
    cases hbc
    exact .nil
  | cons hr _ ih =>
    cases hbc with
    | cons hs hrest =>
      refine .cons (h _ (by simp) _ (by simp) _ (by simp) hr hs) (ih ?_ hrest)
      intro a ha b hb c hc
      exact h a (by simp [ha]) b (by simp [hb]) c (by simp [hc])

namespace Value

def RegularNumber : Int ⊕ Binary64 → Prop
  | .inl _ => True
  | .inr x => x.Regular

/-- The point of the extended line that a number stands for. -/
def point : Int ⊕ Binary64 → ℚ ⊕ Bool ⊕ Nat
  | .inl n => .inl n
  | .inr (.finite neg m q) => .inl (Binary64.signed neg (Binary64.magnitude m q))
  | .inr (.infinite neg) => .inr (.inl neg)
  | .inr (.nan o) => .inr (.inr o)

theorem sameNumber_iff (hx : RegularNumber x) (hy : RegularNumber y) :
    sameNumber x y = true ↔ point x = point y := by
  rcases x with a | ⟨neg, m, q⟩ | neg | o
  · rcases y with b | ⟨neg', m', q'⟩ | neg' | o'
    · simp [sameNumber, point]
    · rw [sameNumber, Binary64.eqInt_finite, point, point, Sum.inl.injEq, eq_comm]
    · simp [sameNumber, point, Binary64.eqInt]
    · simp [sameNumber, point, Binary64.eqInt]
  · rcases y with b | ⟨neg', m', q'⟩ | neg' | o'
    · rw [sameNumber, Binary64.eqInt_finite, point, point, Sum.inl.injEq]
    · rw [sameNumber, Binary64.eqFloat_finite hx hy, point, point, Sum.inl.injEq]
    · simp [sameNumber, point, Binary64.eqFloat, Binary64.isZero]
    · simp [sameNumber, point, Binary64.eqFloat, Binary64.isZero]
  · rcases y with b | y
    · simp [sameNumber, point, Binary64.eqInt]
    · cases y <;> simp [sameNumber, point, Binary64.eqFloat, Binary64.isZero]
  · rcases y with b | y
    · simp [sameNumber, point, Binary64.eqInt]
    · cases y <;> simp [sameNumber, point, Binary64.eqFloat, Binary64.isZero]

theorem same_of_number {v w : Value} (hx : v.number? = some x) (hy : w.number? = some y)
    (h : sameNumber x y = true) : v.same w = true := by
  have heq : v.same w = (v.number?.bind fun x => w.number?.map (sameNumber x)).getD false := by
    cases v with
    | bool | int | float => rw [same]
    | null | text | list | object => cases hx
  rw [heq, hx, hy]
  exact h

-- ---------------------------------------------------------------------------
-- Values
-- ---------------------------------------------------------------------------

/-- A value with every float in its one form and every name of an object once: what a
record can hold. -/
inductive Proper : Value → Prop where
  | null : Proper .null
  | number (hx : v.number? = some x) (h : RegularNumber x) : Proper v
  | text (s : String) : Proper (.text s)
  | list (h : ∀ v ∈ items, Proper v) : Proper (.list items)
  | object (hn : (fields.map Prod.fst).Nodup) (h : ∀ f ∈ fields, Proper f.2) : Proper (.object fields)

namespace Proper

theorem of_number (h : Proper v) (hx : v.number? = some x) : RegularNumber x := by
  cases h with
  | number hy h => exact Option.some.inj (hx.symm.trans hy) ▸ h
  | null | text | list | object => cases hx

theorem of_list (h : Proper (.list items)) : ∀ v ∈ items, Proper v := by
  cases h with
  | number hx => cases hx
  | list h => exact h

theorem of_object (h : Proper (.object fields)) :
    (fields.map Prod.fst).Nodup ∧ ∀ f ∈ fields, Proper f.2 := by
  cases h with
  | number hx => cases hx
  | object hn h => exact ⟨hn, h⟩

end Proper

theorem same_null_iff : same .null v = true ↔ v = .null := by
  cases v <;> simp [same]

theorem same_text_iff : same (.text s) v = true ↔ v = .text s := by
  cases v with
  | text t =>
    rw [same, beq_iff_eq, text.injEq]
    exact eq_comm
  | _ => simp [same]

theorem sameItems_iff : sameItems as bs = true ↔ List.Forall₂ (fun a b => a.same b = true) as bs := by
  induction as generalizing bs with
  | nil => cases bs <;> simp [sameItems]
  | cons a as ih => cases bs <;> simp [sameItems, ih]

theorem same_list_iff : same (.list as) v = true ↔
    ∃ bs, v = .list bs ∧ List.Forall₂ (fun a b => a.same b = true) as bs := by
  cases v <;> simp [same, sameItems_iff]

theorem same_object_iff {p : Fields} : same (.object p) v = true ↔ ∃ q : Fields, v = .object q ∧
    p.length = q.length ∧ ∀ f ∈ p, ∃ b, q.get? f.1 = some b ∧ f.2.same b = true := by
  cases v <;> simp [same, sameFields_iff]

theorem get?_of_mem {p : Fields} (hn : (p.map Prod.fst).Nodup) (h : f ∈ p) :
    p.get? f.1 = some f.2 := by
  obtain ⟨before, after, rfl⟩ := List.append_of_mem h
  rw [List.map_append, List.nodup_append'] at hn
  rw [Fields.get?, List.lookup_eq_some_iff]
  refine ⟨before, after, rfl, fun k hk => bne_iff_ne.mpr fun heq => ?_⟩
  exact hn.2.2 (List.mem_map_of_mem hk) (by simp [heq])

/-- Where the second of two objects has all fields of the first and no more, the
first has those of the second. -/
theorem exists_field {p q : Fields} (hn : (p.map Prod.fst).Nodup) (hl : q.length ≤ p.length)
    (h : ∀ f ∈ p, ∃ b, q.get? f.1 = some b) (hk : k ∈ q) : ∃ f ∈ p, f.1 = k.1 := by
  have hsubset : p.map Prod.fst ⊆ q.map Prod.fst := by
    intro name hname
    obtain ⟨f, hf, rfl⟩ := List.mem_map.mp hname
    obtain ⟨b, hb⟩ := h f hf
    exact List.mem_map.mpr ⟨_, get?_mem hb, rfl⟩
  have hperm := (List.subperm_of_subset hn hsubset).perm_of_length_le (by simpa using hl)
  exact List.mem_map.mp (hperm.mem_iff.mpr (List.mem_map_of_mem hk))

theorem same_refl (h : Proper v) : v.same v = true := by
  induction h with
  | null => rfl
  | number hx h => exact same_of_number hx hx ((sameNumber_iff h h).mpr rfl)
  | text s => exact same_text_iff.mpr rfl
  | list _ ih => exact same_list_iff.mpr ⟨_, rfl, List.forall₂_same.mpr ih⟩
  | object hn _ ih =>
    exact same_object_iff.mpr ⟨_, rfl, rfl, fun f hf => ⟨f.2, get?_of_mem hn hf, ih f hf⟩⟩

theorem same_symm (hv : Proper v) (hw : Proper w) (h : v.same w = true) : w.same v = true := by
  induction hv generalizing w with
  | null => rw [same_null_iff.mp h, same_null_iff]
  | number hx hreg =>
    obtain ⟨y, hy, hxy⟩ := same_number hx h
    have hreg' := hw.of_number hy
    refine same_of_number hy hx ((sameNumber_iff hreg' hreg).mpr ?_)
    exact ((sameNumber_iff hreg hreg').mp hxy).symm
  | text s => rw [same_text_iff.mp h, same_text_iff]
  | list _ ih =>
    obtain ⟨bs, rfl, hall⟩ := same_list_iff.mp h
    refine same_list_iff.mpr ⟨_, rfl, List.Forall₂.flip ?_⟩
    exact forall₂_imp_mem (fun a ha b hb hab => ih a ha (hw.of_list b hb) hab) hall
  | @object p hn _ ih =>
    obtain ⟨q, rfl, hl, hall⟩ := same_object_iff.mp h
    obtain ⟨hnq, hq⟩ := hw.of_object
    refine same_object_iff.mpr ⟨p, rfl, hl.symm, fun k hk => ?_⟩
    obtain ⟨f, hf, hname⟩ := exists_field hn hl.ge (fun f hf => (hall f hf).imp fun _ hb => hb.1) hk
    obtain ⟨b, hb, hfb⟩ := hall f hf
    obtain rfl : b = k.2 := Option.some.inj (hb.symm.trans (hname ▸ get?_of_mem hnq hk))
    exact ⟨f.2, hname ▸ get?_of_mem hn hf, ih f hf (hq k hk) hfb⟩

theorem same_trans (hu : Proper u) (hv : Proper v) (hw : Proper w) (h : u.same v = true)
    (h' : v.same w = true) : u.same w = true := by
  induction hu generalizing v w with
  | null =>
    obtain rfl := same_null_iff.mp h
    exact h'
  | number hx hreg =>
    obtain ⟨y, hy, hxy⟩ := same_number hx h
    obtain ⟨z, hz, hyz⟩ := same_number hy h'
    have hregy := hv.of_number hy
    have hregz := hw.of_number hz
    refine same_of_number hx hz ((sameNumber_iff hreg hregz).mpr ?_)
    exact ((sameNumber_iff hreg hregy).mp hxy).trans ((sameNumber_iff hregy hregz).mp hyz)
  | text s =>
    obtain rfl := same_text_iff.mp h
    exact h'
  | list _ ih =>
    obtain ⟨bs, rfl, hall⟩ := same_list_iff.mp h
    obtain ⟨cs, rfl, hall'⟩ := same_list_iff.mp h'
    refine same_list_iff.mpr ⟨cs, rfl, forall₂_trans_mem ?_ hall hall'⟩
    exact fun a ha b hb c hc hab hbc => ih a ha (hv.of_list b hb) (hw.of_list c hc) hab hbc
  | object _ _ ih =>
    obtain ⟨q, rfl, hl, hall⟩ := same_object_iff.mp h
    obtain ⟨r, rfl, hl', hall'⟩ := same_object_iff.mp h'
    refine same_object_iff.mpr ⟨r, rfl, hl.trans hl', fun f hf => ?_⟩
    obtain ⟨b, hb, hfb⟩ := hall f hf
    have hbq := get?_mem hb
    obtain ⟨c, hc, hbc⟩ := hall' _ hbq
    exact ⟨c, hc, ih f hf (hv.of_object.2 _ hbq) (hw.of_object.2 _ (get?_mem hc)) hfb hbc⟩

end Value

end CatalogPlan
