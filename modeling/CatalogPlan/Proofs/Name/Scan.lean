import CatalogPlan.Name.Canonical
import CatalogPlan.Proofs.Event
import Mathlib.Data.List.DropRight

/-!
# Scanning names

Blanks around a name do not bear on what is read from it. A scan that is done
with the text before a dot goes on after it as it began, both in looking for the
argument list and in taking the parts.
-/

namespace CatalogPlan

-- ---------------------------------------------------------------------------
-- Blanks at the ends
-- ---------------------------------------------------------------------------

namespace Text

def Blanks (cs : List Char) : Prop :=
  ∀ c ∈ cs, isBlank c = true

theorem Blanks.of_cons (h : Blanks (c :: cs)) : isBlank c = true ∧ Blanks cs :=
  List.forall_mem_cons.mp h

theorem Blanks.nil : Blanks [] := by simp [Blanks]

theorem Blanks.singleton (hc : isBlank c = true) : Blanks [c] := by simpa [Blanks] using hc

theorem ne_of_isBlank (hc : isBlank c = true) (hd : isBlank d = false) : c ≠ d := by
  rintro rfl
  simp [hc] at hd

theorem isBlank_doubleQuote : isBlank doubleQuote = false := by decide

theorem isBlank_dot : isBlank '.' = false := by decide

theorem exists_trimEnd (cs : List Char) : ∃ r, Blanks r ∧ cs = trimEnd cs ++ r :=
  ⟨cs.rtakeWhile isBlank, fun _ => List.mem_rtakeWhile_imp,
    List.rdropWhile_append_rtakeWhile.symm⟩

theorem exists_trim (cs : List Char) : ∃ l r, Blanks l ∧ Blanks r ∧ cs = l ++ (trim cs ++ r) := by
  obtain ⟨r, hr, heq⟩ := exists_trimEnd (cs.dropWhile isBlank)
  refine ⟨cs.takeWhile isBlank, r, fun _ => List.mem_takeWhile_imp, hr, ?_⟩
  rw [trim, ← heq, List.takeWhile_append_dropWhile]

theorem trim_ne_nil (h : c ∈ cs) (hc : isBlank c = false) : trim cs ≠ [] := by
  intro hnil
  obtain ⟨l, r, hl, hr, heq⟩ := exists_trim cs
  rw [heq, hnil, List.nil_append] at h
  rcases List.mem_append.mp h with h | h
  · simp [hl c h] at hc
  · simp [hr c h] at hc

theorem trimEnd_append_blanks (cs : List Char) (hr : Blanks r) : trimEnd (cs ++ r) = trimEnd cs := by
  induction r using List.reverseRecOn with
  | nil => rw [List.append_nil]
  | append_singleton r c ih =>
    have hrest : trimEnd (cs ++ r ++ [c]) = trimEnd (cs ++ r) :=
      List.rdropWhile_concat_pos _ _ _ (hr c (by simp))
    rw [← List.append_assoc, hrest]
    exact ih fun d hd => hr d (by simp [hd])

theorem trimEnd_eq_self_iff : trimEnd cs = cs ↔ ∀ h : cs ≠ [], isBlank (cs.getLast h) = false := by
  simp only [← Bool.not_eq_true]
  exact List.rdropWhile_eq_self_iff

theorem trimEnd_concat (hc : isBlank c = false) (cs : List Char) : trimEnd (cs ++ [c]) = cs ++ [c] :=
  List.rdropWhile_concat_neg _ _ _ (by simp [hc])

theorem trimEnd_of_append (h : trimEnd (cs ++ ds) = cs ++ ds) : trimEnd ds = ds := by
  rw [trimEnd_eq_self_iff] at h ⊢
  intro hne
  have hlast := h (by simp [hne])
  rwa [List.getLast_append_of_ne_nil _ hne] at hlast

theorem trimEnd_trim (cs : List Char) : trimEnd (trim cs) = trim cs :=
  List.rdropWhile_idempotent _ _

theorem isBlank_head_trim (h : trim cs = c :: rest) : isBlank c = false := by
  obtain ⟨r, -, heq⟩ := exists_trimEnd (cs.dropWhile isBlank)
  rw [show trimEnd (cs.dropWhile isBlank) = c :: rest from h, List.cons_append] at heq
  have hhead := List.head?_dropWhile_not isBlank cs
  simpa only [heq, List.head?_cons, Bool.not_eq_true] using hhead

theorem trim_trim (cs : List Char) : trim (trim cs) = trim cs := by
  have hstart : (trim cs).dropWhile isBlank = trim cs := by
    cases hcs : trim cs with
    | nil => rfl
    | cons c rest => rw [List.dropWhile_cons_of_neg (by simp [isBlank_head_trim hcs])]
  rw [show trim (trim cs) = trimEnd ((trim cs).dropWhile isBlank) from rfl, hstart, trimEnd_trim]

theorem strip_strip (s : String) : strip (strip s) = strip s := by
  simp only [strip, String.toList_ofList, trim_trim]

end Text

namespace Name

open Text (isBlank doubleQuote Blanks trim trimEnd)

variable {a before cs : List Char} {later : List (List Char)} {q : Quoting}

-- ---------------------------------------------------------------------------
-- Looking for the argument list
-- ---------------------------------------------------------------------------

/-- Whether a quote is open after a text, when every quote opens or closes. -/
def openAfter (quoted : Bool) (cs : List Char) : Bool :=
  cs.foldl (fun quoted c => quoted ^^ c == doubleQuote) quoted

theorem cut_append_of_none (h : cut quoted a = none) (b : List Char) : cut quoted (a ++ b) =
    (cut (openAfter quoted a) b).map fun (before, after) => (a ++ before, after) := by
  induction a generalizing quoted with
  | nil => simp [openAfter]
  | cons c a ih =>
    simp only [cut] at h
    split at h
    · cases h
    · rename_i hc
      have hrest : cut (quoted ^^ c == doubleQuote) a = none := by simpa using h
      rw [List.cons_append, cut, if_neg hc, ih hrest, Option.map_map]
      rfl

theorem cut_append_of_some (h : cut quoted a = some (before, after)) (b : List Char) :
    cut quoted (a ++ b) = some (before, after ++ b) := by
  induction a generalizing quoted before with
  | nil => cases h
  | cons c a ih =>
    simp only [cut] at h
    rw [List.cons_append, cut]
    split at h
    · rename_i hc
      cases h
      rw [if_pos hc]
    · rename_i hc
      obtain ⟨⟨x, y⟩, hrest, heq⟩ := Option.map_eq_some_iff.mp h
      cases heq
      rw [if_neg hc, ih hrest]
      rfl

theorem cut_eq_some (h : cut quoted cs = some (before, after)) : cs = before ++ '(' :: after := by
  induction cs generalizing quoted before with
  | nil => cases h
  | cons c cs ih =>
    simp only [cut] at h
    split at h
    · rename_i hc
      cases h
      rw [hc.1, List.nil_append]
    · obtain ⟨⟨x, y⟩, hrest, heq⟩ := Option.map_eq_some_iff.mp h
      cases heq
      rw [ih hrest, List.cons_append]

theorem cut_before (h : cut false cs = some (before, after)) : cut false before = none := by
  cases hbefore : cut false before with
  | none => rfl
  | some found =>
    obtain ⟨first, rest⟩ := found
    have happend := cut_append_of_some hbefore ('(' :: after)
    rw [← cut_eq_some h, h] at happend
    obtain ⟨rfl, -⟩ := Prod.mk.inj (Option.some.inj happend)
    have hlength := congrArg List.length (cut_eq_some hbefore)
    simp at hlength

theorem cut_blanks (h : Blanks cs) (quoted : Bool) : cut quoted cs = none := by
  induction cs generalizing quoted with
  | nil => rfl
  | cons c cs ih =>
    obtain ⟨hc, hcs⟩ := h.of_cons
    have hne : c ≠ '(' := Text.ne_of_isBlank hc (by decide)
    simp [cut, hne, ih hcs]

theorem openAfter_blanks (h : Blanks cs) (quoted : Bool) : openAfter quoted cs = quoted := by
  induction cs with
  | nil => rfl
  | cons c cs ih =>
    obtain ⟨hc, hcs⟩ := h.of_cons
    have hne : (c == doubleQuote) = false :=
      beq_eq_false_iff_ne.mpr (Text.ne_of_isBlank hc Text.isBlank_doubleQuote)
    simpa [openAfter, hne] using ih hcs

theorem cut_between_blanks (hl : Blanks l) (hr : Blanks r) (cs : List Char) :
    cut false (l ++ (cs ++ r)) =
      (cut false cs).map fun (before, after) => (l ++ before, after ++ r) := by
  rw [cut_append_of_none (cut_blanks hl _), openAfter_blanks hl]
  cases h : cut false cs with
  | none => simp [cut_append_of_none h, cut_blanks hr]
  | some found => simp [cut_append_of_some h]

-- ---------------------------------------------------------------------------
-- Taking the parts
-- ---------------------------------------------------------------------------

namespace Quoting

def next (q : Quoting) (c : Char) : Quoting :=
  if q = .inside then (if c = doubleQuote then .leaving else .inside)
  else if c = doubleQuote then .inside else .outside

def kept (q : Quoting) (c : Char) : List Char :=
  if c = doubleQuote then (if q = .leaving then [c] else [])
  else if q = .inside then [c]
  else if isBlank c then [] else Text.lowerChar c

/-- What a character makes of the parts of the text after it. -/
def take (q : Quoting) (c : Char) : List Char × List (List Char) → List Char × List (List Char) :=
  if q ≠ .inside ∧ c = '.' then fun after => ([], after.1 :: after.2)
  else fun after => (q.kept c ++ after.1, after.2)

theorem take_append (q : Quoting) (c : Char) (part : List Char) (later more : List (List Char)) :
    q.take c (part, later ++ more) =
      ((q.take c (part, later)).1, (q.take c (part, later)).2 ++ more) := by
  unfold take
  split <;> rfl

end Quoting

theorem parts_cons (q : Quoting) (c : Char) (rest : List Char) :
    parts q (c :: rest) = (parts (q.next c) rest).map (q.take c) := by
  have hdot : doubleQuote ≠ '.' := by decide
  cases q with
  | inside =>
    by_cases hc : c = doubleQuote <;> simp [parts, Quoting.next, Quoting.take, Quoting.kept, hc]
  | outside | leaving =>
    by_cases hc : c = doubleQuote
    · simp [parts, Quoting.next, Quoting.take, Quoting.kept, hc, hdot]
    · by_cases hd : c = '.'
      · simp [parts, Quoting.next, Quoting.take, hd, hdot.symm]
      · by_cases hb : isBlank c = true <;>
          simp [parts, Quoting.next, Quoting.take, Quoting.kept, hc, hd, hb]

theorem parts_blank {c : Char} (hc : isBlank c = true) (rest : List Char) : parts q (c :: rest) =
    if q = .inside then (parts .inside rest).map fun (part, later) => (c :: part, later)
    else parts .outside rest := by
  have hquote := Text.ne_of_isBlank hc Text.isBlank_doubleQuote
  have hdot := Text.ne_of_isBlank hc Text.isBlank_dot
  cases q <;> simp [parts, hquote, hdot, hc]

theorem parts_blanks_append (h : Blanks l) (cs : List Char) :
    parts .outside (l ++ cs) = parts .outside cs := by
  induction l with
  | nil => rfl
  | cons c l ih =>
    obtain ⟨hc, hl⟩ := h.of_cons
    rw [List.cons_append, parts_blank hc, if_neg (by decide), ih hl]

theorem parts_blanks (h : Blanks r) (q : Quoting) : parts q r = parts q [] := by
  induction r generalizing q with
  | nil => rfl
  | cons c r ih =>
    obtain ⟨hc, hr⟩ := h.of_cons
    rw [parts_blank hc, ih hr, ih hr]
    cases q <;> rfl

theorem parts_append_blanks (h : Blanks r) (cs : List Char) : parts q (cs ++ r) = parts q cs := by
  induction cs generalizing q with
  | nil => exact parts_blanks h q
  | cons c cs ih => rw [List.cons_append, parts_cons, parts_cons, ih]

/-- A scan goes on after a dot outside quotes as if the text began there. -/
theorem parts_dot (h : parts q a = some (part, later)) (b : List Char) :
    parts q (a ++ '.' :: b) =
      (parts .outside b).map fun (first, rest) => (part, later ++ first :: rest) := by
  induction a generalizing q part later with
  | nil =>
    have hdot : '.' ≠ doubleQuote := by decide
    cases q with
    | inside => cases h
    | outside | leaving =>
      cases h
      simp [parts, hdot]
  | cons c a ih =>
    rw [parts_cons] at h
    obtain ⟨⟨p, ps⟩, hrest, heq⟩ := Option.map_eq_some_iff.mp h
    rw [List.cons_append, parts_cons, ih hrest, Option.map_map]
    refine congrArg (Option.map · _) (funext fun x => ?_)
    simp only [Function.comp_apply, Quoting.take_append, heq]

theorem openAfter_of_parts (h : parts q cs = some found) : openAfter (decide (q = .inside)) cs = false := by
  induction cs generalizing q found with
  | nil =>
    cases q with
    | inside => cases h
    | outside | leaving => rfl
  | cons c cs ih =>
    rw [parts_cons] at h
    obtain ⟨x, hrest, -⟩ := Option.map_eq_some_iff.mp h
    have hnext : (decide (q = .inside) ^^ c == doubleQuote) = decide (q.next c = .inside) := by
      cases q <;> by_cases hc : c = doubleQuote <;> simp [Quoting.next, hc]
    rw [openAfter, List.foldl_cons, hnext]
    exact ih hrest

-- ---------------------------------------------------------------------------
-- Reading a name
-- ---------------------------------------------------------------------------

/-- A dotted name has the parts, none of them empty. -/
def Dotted (cs : List Char) (own : List String) : Prop :=
  ∃ part later, parts .outside cs = some (part, later) ∧ (∀ p ∈ part :: later, p ≠ []) ∧
    (part :: later).map String.ofList = own

theorem Dotted.closed (h : Dotted cs own) : openAfter false cs = false := by
  obtain ⟨part, later, hparts, -⟩ := h
  exact openAfter_of_parts hparts

/-- A name is a base and, in parentheses at its end, the arguments. -/
def Signed (cs base : List Char) : Option String → Prop
  | none => cut false cs = none ∧ base = cs
  | some arguments => ∃ after, cut false cs = some (base, after) ∧
      trimEnd after = arguments.toList ++ [')']

theorem split_ok : split text = .ok own ↔ Dotted text.toList own := by
  unfold split Dotted
  cases parts .outside text.toList with
  | none => simp
  | some found =>
    obtain ⟨part, later⟩ := found
    by_cases hany : (part :: later).any List.isEmpty = true
    · simp only [hany, if_true, reduceCtorEq, false_iff]
      rintro ⟨p, ps, heq, hne, -⟩
      cases heq
      obtain ⟨e, he, hnil⟩ := List.any_eq_true.mp hany
      exact hne e he (List.isEmpty_iff.mp hnil)
    · have hne : ∀ p ∈ part :: later, p ≠ [] := by
        rintro p hp rfl
        exact hany (List.any_eq_true.mpr ⟨[], hp, rfl⟩)
      simp only [hany, Bool.false_eq_true, if_false, Except.ok.injEq]
      constructor
      · rintro rfl
        exact ⟨part, later, rfl, hne, rfl⟩
      · rintro ⟨p, ps, heq, -, rfl⟩
        cases heq
        rfl

theorem split_open (h : parts .outside text.toList = none) :
    split text = .error (.unterminatedQuote text) := by
  rw [split, h]

theorem splitSignature_ok {arguments : Option String} : splitSignature text = .ok (base, arguments) ↔
    cut false text.toList = none ∧ base = text ∧ arguments = none ∨
      ∃ before after, cut false text.toList = some (before, after ++ [')']) ∧
        base = String.ofList before ∧ arguments = some (String.ofList after) := by
  unfold splitSignature
  cases cut false text.toList with
  | none =>
    simp only [Except.ok.injEq, Prod.mk.injEq, reduceCtorEq, false_and, exists_false, or_false, true_and]
    exact and_congr eq_comm eq_comm
  | some found =>
    obtain ⟨before, after⟩ := found
    simp only [reduceCtorEq, false_and, false_or, Option.some.injEq, Prod.mk.injEq]
    by_cases hlast : after.getLast? = some ')'
    · obtain ⟨front, rfl⟩ := List.getLast?_eq_some_iff.mp hlast
      simp only [hlast, if_true, Except.ok.injEq, Prod.mk.injEq, List.dropLast_concat,
        List.append_cancel_right_eq]
      constructor
      · rintro ⟨rfl, rfl⟩
        exact ⟨before, front, ⟨rfl, rfl⟩, rfl, rfl⟩
      · rintro ⟨_, _, ⟨rfl, rfl⟩, rfl, rfl⟩
        exact ⟨rfl, rfl⟩
    · simp only [hlast, if_false, reduceCtorEq, false_iff]
      rintro ⟨_, after', ⟨-, rfl⟩, -⟩
      simp at hlast

theorem dotted_between_blanks (hl : Text.Blanks l) (hr : Text.Blanks r) :
    Dotted (l ++ (cs ++ r)) own ↔ Dotted cs own := by
  rw [Dotted, Dotted, parts_blanks_append hl, parts_append_blanks hr]

theorem strip_ok {arguments : Option String} :
    (∃ base, splitSignature (Text.strip name) = .ok (base, arguments) ∧ split base = .ok own) ↔
      ∃ base, Signed name.toList base arguments ∧ Dotted base own := by
  obtain ⟨l, r, hl, hr, heq⟩ := Text.exists_trim name.toList
  have hcut := cut_between_blanks hl hr (trim name.toList)
  rw [← heq] at hcut
  have hstrip : (Text.strip name).toList = trim name.toList := String.toList_ofList
  simp only [splitSignature_ok, split_ok, hstrip]
  cases arguments with
  | none =>
    have hdotted : Dotted name.toList own ↔ Dotted (trim name.toList) own := by
      conv_lhs => rw [heq]
      exact dotted_between_blanks hl hr
    simp [Signed, hcut, hdotted, hstrip, and_assoc]
  | some arguments =>
    constructor
    · rintro ⟨_, ⟨-, -, h⟩ | ⟨before, after, hat, rfl, hargs⟩, hd⟩
      · cases h
      obtain rfl := Option.some.inj hargs
      rw [String.toList_ofList] at hd
      refine ⟨l ++ before, ⟨after ++ [')'] ++ r, by simp [hcut, hat], ?_⟩, ?_⟩
      · rw [Text.trimEnd_append_blanks _ hr, String.toList_ofList, Text.trimEnd_concat (by decide)]
      · simpa [Dotted, parts_blanks_append hl] using hd
    · rintro ⟨base, ⟨after, hat, htrim⟩, hd⟩
      obtain ⟨⟨before, rest⟩, ht, hat⟩ := Option.map_eq_some_iff.mp (hcut ▸ hat)
      cases hat
      -- The stripped name has no blanks at its end, so the arguments end it.
      have hend : trimEnd rest = rest := by
        refine @Text.trimEnd_of_append (before ++ ['(']) rest ?_
        rw [List.append_assoc, List.singleton_append, ← cut_eq_some ht, Text.trimEnd_trim]
      rw [Text.trimEnd_append_blanks _ hr, hend] at htrim
      refine ⟨String.ofList before, .inr ⟨before, arguments.toList, ?_, rfl, ?_⟩, ?_⟩
      · rw [ht, htrim]
      · rw [String.ofList_toList]
      · simpa [Dotted, parts_blanks_append hl] using hd

end Name

end CatalogPlan
