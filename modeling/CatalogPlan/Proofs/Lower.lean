import CatalogPlan.Text.Blank
import CatalogPlan.Text.Lower
import CatalogPlan.Text.Quotes
import Mathlib.Data.List.Basic

/-!
# Lower case

Folding a character gives the character itself or a small one. Small characters are
neither blanks nor marks that names are cut at, and folding leaves them as they are, so
that a text which was folded once stays as it is.
-/

namespace CatalogPlan.Text

variable {c d : Char} {cs before : List Char}

def isKept (c : Char) : Bool :=
  c != doubleQuote && !isBlank c

/-- A character that folding leaves as it is, also in a text. -/
def isSettled (c : Char) : Bool :=
  lowerChar c == [c] && c.toNat != 0x3a3

def isSmall (c : Char) : Bool :=
  isKept c && c != ',' && isSettled c

-- ---------------------------------------------------------------------------
-- The table
-- ---------------------------------------------------------------------------

def isSmallCode (n : Nat) : Bool :=
  let c := Char.ofNat n
  c.toNat == n && isKept c && c != ',' && n != 0x130 && n != 0x3a3 && (128 ≤ n || isSettled c)

theorem lowerRuns_codes : (lowerRuns.all fun r =>
    (List.range (r.last - r.first + 1)).all fun k =>
      k % r.step != 0 || isSmallCode (k + r.image)) = true := by
  decide +kernel

def runsBetween (low high : Nat) : List LowerRun :=
  lowerRuns.filter fun r => low.ble r.last && r.first.ble high

theorem lowerRuns_apart : (lowerRuns.all fun r =>
    (runsBetween r.image (r.image + (r.last - r.first))).all fun s =>
      (List.range (r.last - r.first + 1)).all fun k =>
        k % r.step != 0 || (s.image? (k + r.image)).isNone) = true := by
  decide +kernel

theorem LowerRun.image?_eq_some {r : LowerRun} (h : r.image? n = some m) :
    ∃ k ∈ List.range (r.last - r.first + 1), k % r.step = 0 ∧ k + r.image = m := by
  simp only [image?, Option.ite_none_right_eq_some, Option.some.injEq] at h
  obtain ⟨⟨hfirst, hlast, hstep⟩, rfl⟩ := h
  exact ⟨n - r.first, List.mem_range.mpr (by omega), hstep, rfl⟩

theorem isSmall_of_image {r : LowerRun} (hr : r ∈ lowerRuns) (h : r.image? n = some m) :
    isSmall (Char.ofNat m) = true := by
  obtain ⟨k, hk, hstep, rfl⟩ := r.image?_eq_some h
  have hcode := List.all_eq_true.mp (List.all_eq_true.mp lowerRuns_codes r hr) k hk
  simp only [hstep, isSmallCode, bne_self_eq_false, Bool.false_or, Bool.and_eq_true, beq_iff_eq,
    bne_iff_ne, Bool.or_eq_true, decide_eq_true_eq] at hcode
  obtain ⟨⟨⟨⟨⟨hnat, hkept⟩, hcomma⟩, hdotted⟩, hsigma⟩, hsettled⟩ := hcode
  have hnone : lowerRuns.findSome? (·.image? (k + r.image)) = none := by
    refine List.findSome?_eq_none_iff.mpr fun s hs => ?_
    by_cases hnear : r.image ≤ s.last ∧ s.first ≤ r.image + (r.last - r.first)
    · have hmem : s ∈ runsBetween r.image (r.image + (r.last - r.first)) :=
        List.mem_filter.mpr ⟨hs, by simp [hnear]⟩
      have hall := List.all_eq_true.mp (List.all_eq_true.mp
        (List.all_eq_true.mp lowerRuns_apart r hr) s hmem) k hk
      simpa [hstep] using hall
    · have hout := List.mem_range.mp hk
      rw [LowerRun.image?, if_neg (by omega)]
  have hlower : isSettled (Char.ofNat (k + r.image)) = true := by
    rcases hsettled with hlarge | hsettled
    · simp [isSettled, lowerChar, hnat, hdotted, hsigma, hnone, Nat.not_lt.mpr hlarge]
    · exact hsettled
  simp [isSmall, hkept, hcomma, hlower]

-- ---------------------------------------------------------------------------
-- Characters
-- ---------------------------------------------------------------------------

theorem isSmall_capital (h : 'A' ≤ c ∧ c ≤ 'Z') : isSmall (Char.ofNat (c.toNat + 32)) = true := by
  have hsmall : ∀ n < 26, isSmall (Char.ofNat (n + 97)) = true := by decide
  simp only [Char.le_def, UInt32.le_iff_toNat_le] at h
  have hbetween : 65 ≤ c.toNat ∧ c.toNat ≤ 90 := h
  have hn := hsmall (c.toNat - 65) (by omega)
  rwa [show c.toNat - 65 + 97 = c.toNat + 32 by omega] at hn

/-- Folding a character gives itself or small ones. -/
theorem lowerChar_cases (c : Char) : lowerChar c = [c] ∨ ∀ d ∈ lowerChar c, isSmall d = true := by
  unfold lowerChar
  split
  · split
    · exact .inr (by simpa using isSmall_capital ‹_›)
    · exact .inl rfl
  · split
    · exact .inr (List.all_eq_true.mp (by decide))
    · cases hf : lowerRuns.findSome? (·.image? c.toNat) with
      | none => exact .inl rfl
      | some m =>
        obtain ⟨r, hr, himage⟩ := List.exists_of_findSome?_eq_some hf
        exact .inr (by simpa using isSmall_of_image hr himage)

theorem length_lowerChar (c : Char) : 1 ≤ (lowerChar c).length := by
  unfold lowerChar
  split
  · exact Nat.le_refl 1
  · split <;> simp

theorem isSmall_iff : isSmall c = true ↔ isKept c = true ∧ c ≠ ',' ∧ isSettled c = true := by
  simp [isSmall, and_assoc]

theorem isKept_lowerChar (hc : isKept c = true) (hd : d ∈ lowerChar c) : isKept d = true := by
  rcases lowerChar_cases c with h | h
  · obtain rfl := List.mem_singleton.mp (h ▸ hd)
    exact hc
  · exact (isSmall_iff.mp (h d hd)).1

-- ---------------------------------------------------------------------------
-- Texts
-- ---------------------------------------------------------------------------

def lowerIn (before : List Char) (c : Char) (rest : List Char) : List Char :=
  if c.toNat = 0x3a3 then
    [Char.ofNat (if meetsCased before && !meetsCased rest then 0x3c2 else 0x3c3)]
  else lowerChar c

theorem lowerAfter_cons (before : List Char) (c : Char) (rest : List Char) :
    lowerAfter before (c :: rest) = lowerIn before c rest ++ lowerAfter (c :: before) rest :=
  rfl

theorem isSettled_iff : isSettled c = true ↔ lowerChar c = [c] ∧ c.toNat ≠ 0x3a3 := by
  simp [isSettled]

theorem lowerIn_cases (before : List Char) (c : Char) (rest : List Char) :
    (lowerIn before c rest = [c] ∧ isSettled c = true) ∨
      ∀ d ∈ lowerIn before c rest, isSmall d = true := by
  unfold lowerIn
  split
  · refine .inr fun d hd => ?_
    obtain rfl := List.mem_singleton.mp hd
    split <;> decide
  · rcases lowerChar_cases c with h | h
    · exact .inl ⟨h, isSettled_iff.mpr ⟨h, ‹_›⟩⟩
    · exact .inr h

theorem lowerIn_ne_nil (before : List Char) (c : Char) (rest : List Char) :
    lowerIn before c rest ≠ [] := by
  unfold lowerIn
  split
  · simp
  · exact List.ne_nil_of_length_pos (length_lowerChar c)

theorem isSettled_of_mem_lowerAfter (h : d ∈ lowerAfter before cs) : isSettled d = true := by
  induction cs generalizing before with
  | nil => cases h
  | cons c cs ih =>
    rw [lowerAfter_cons] at h
    rcases List.mem_append.mp h with h | h
    · rcases lowerIn_cases before c cs with ⟨hself, hsettled⟩ | hsmall
      · obtain rfl := List.mem_singleton.mp (hself ▸ h)
        exact hsettled
      · exact (isSmall_iff.mp (hsmall d h)).2.2
    · exact ih h

theorem lowerAfter_of_settled (h : ∀ c ∈ cs, isSettled c = true) : lowerAfter before cs = cs := by
  induction cs generalizing before with
  | nil => rfl
  | cons c cs ih =>
    obtain ⟨hc, hcs⟩ := List.forall_mem_cons.mp h
    obtain ⟨hself, hsigma⟩ := isSettled_iff.mp hc
    rw [lowerAfter_cons, lowerIn, if_neg hsigma, hself, ih hcs, List.singleton_append]

/-- Folding a text again changes nothing, whatever is taken to stand before it. -/
theorem lowerAfter_lowerAfter (before again cs : List Char) :
    lowerAfter again (lowerAfter before cs) = lowerAfter before cs :=
  lowerAfter_of_settled fun _ => isSettled_of_mem_lowerAfter

end CatalogPlan.Text
