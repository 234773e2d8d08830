import CatalogPlan.Proofs.Lower
import CatalogPlan.Proofs.Name.Qualified
import CatalogPlan.Proofs.Name.Written

/-!
# Names whose quotes are lost

A part that loses the quotes around it, with those inside still doubled, is read as
it was exactly when each of its characters stands for itself: a capital is folded, a
blank is dropped, a dot divides, and of quotes in a row the first is lost.
-/

namespace CatalogPlan

namespace Name

open Text (isBlank doubleQuote lowerChar isKept isKept_lowerChar length_lowerChar)

variable {c : Char} {cs part : List Char} {q : Quoting}

-- ---------------------------------------------------------------------------
-- Text that is read as itself
-- ---------------------------------------------------------------------------

theorem cut_verbatim (h : ∀ c ∈ cs, Verbatim c) : cut false cs = none :=
  cut_of_forall fun c hc => ⟨(h c hc).parenthesis, (h c hc).quote⟩

theorem doubleQuotes_of_unquoted (h : doubleQuote ∉ cs) : doubleQuotes cs = cs := by
  induction cs with
  | nil => rfl
  | cons c cs ih =>
    obtain ⟨hc, hcs⟩ := not_or.mp fun hmem => h (List.mem_cons.mpr hmem)
    rw [doubleQuotes_cons (Ne.symm hc), ih hcs]

theorem kept_of_ne_quote (hq : q ≠ .inside) (hc : c ≠ doubleQuote) :
    q.kept c = if isBlank c then [] else lowerChar c := by
  simp [Quoting.kept, hq, hc]

theorem isKept_kept (hq : q ≠ .inside) (hc : c ≠ doubleQuote) (hd : d ∈ q.kept c) :
    isKept d = true := by
  rw [kept_of_ne_quote hq hc] at hd
  split at hd
  · cases hd
  · rename_i hblank
    exact isKept_lowerChar (by simp [isKept, hc, hblank]) hd

theorem parts_cons_single (hq : q ≠ .inside) (h : parts q (c :: cs) = some (part, [])) :
    c ≠ '.' ∧ ∃ rest, parts (q.next c) cs = some (rest, []) ∧ part = q.kept c ++ rest := by
  rw [parts_cons] at h
  obtain ⟨⟨rest, later⟩, hrest, heq⟩ := Option.map_eq_some_iff.mp h
  by_cases hdot : c = '.'
  · simp [Quoting.take, hq, hdot] at heq
  · simp only [Quoting.take, hdot, and_false, if_false, Prod.mk.injEq] at heq
    obtain ⟨rfl, rfl⟩ := heq
    exact ⟨hdot, rest, hrest, rfl⟩

/-- Where quotes are doubled but not around the text, a part has no more quotes than
the text, and fewer when there are any. -/
theorem count_quotes (hq : q ≠ .inside) (h : parts q (doubleQuotes cs) = some (part, [])) :
    part.count doubleQuote + (if q = .outside ∧ doubleQuote ∈ cs then 1 else 0) ≤
      cs.count doubleQuote := by
  induction cs generalizing q part with
  | nil =>
    obtain rfl : part = [] := by cases q <;> simp_all [doubleQuotes, parts]
    simp
  | cons c cs ih =>
    by_cases hc : c = doubleQuote
    · subst hc
      rw [doubleQuotes_quote] at h
      obtain ⟨-, opened, hopened, rfl⟩ := parts_cons_single hq h
      have hinside : q.next doubleQuote = .inside := by simp [Quoting.next, hq]
      rw [hinside, parts_cons] at hopened
      obtain ⟨⟨rest, later⟩, hrest, heq⟩ := Option.map_eq_some_iff.mp hopened
      obtain ⟨rfl, rfl⟩ : rest = opened ∧ later = [] := by simpa [Quoting.take, Quoting.kept] using heq
      have hcount := ih (q := .leaving) (by decide) hrest
      cases q with
      | inside => exact absurd rfl hq
      | outside | leaving => simpa [Quoting.kept] using hcount
    · rw [doubleQuotes_cons hc] at h
      obtain ⟨-, rest, hrest, rfl⟩ := parts_cons_single hq h
      have hnext : q.next c = .outside := by simp [Quoting.next, hq, hc]
      rw [hnext] at hrest
      have hkept : doubleQuote ∉ q.kept c := fun hmem => absurd (isKept_kept hq hc hmem) (by decide)
      have hcount := ih (by decide) hrest
      rw [List.count_append, List.count_eq_zero_of_not_mem hkept, List.count_cons_of_ne hc, Nat.zero_add]
      refine le_trans (Nat.add_le_add_left ?_ _) hcount
      split <;> split <;> simp_all [Ne.symm hc]

theorem parts_unquoted (hcs : doubleQuote ∉ cs) (h : parts .outside cs = some (part, [])) :
    '.' ∉ cs ∧ part = cs.flatMap (Quoting.outside.kept ·) := by
  induction cs generalizing part with
  | nil =>
    obtain rfl : part = [] := by simpa [parts] using h.symm
    simp
  | cons c cs ih =>
    have hc : c ≠ doubleQuote := fun heq => hcs (heq ▸ List.mem_cons_self)
    obtain ⟨hdot, rest, hrest, rfl⟩ := parts_cons_single (by decide) h
    have hnext : Quoting.outside.next c = .outside := by simp [Quoting.next, hc]
    rw [hnext] at hrest
    obtain ⟨hdots, rfl⟩ := ih (fun hmem => hcs (List.mem_cons_of_mem _ hmem)) hrest
    exact ⟨by simp [hdots, Ne.symm hdot], rfl⟩

theorem parenthesis_not_mem (hcs : doubleQuote ∉ cs) (h : cut false cs = none) : '(' ∉ cs := by
  induction cs with
  | nil => simp
  | cons c cs ih =>
    have hquote : (c == doubleQuote) = false :=
      beq_eq_false_iff_ne.mpr fun heq => hcs (heq ▸ List.mem_cons_self)
    simp only [cut, Bool.false_eq_true, not_false_iff, and_true, hquote, Bool.xor_false] at h
    split at h
    · cases h
    · rename_i hc
      have hrest := ih (fun hmem => hcs (List.mem_cons_of_mem _ hmem)) (by simpa using h)
      simp [hrest, Ne.symm hc]

/-- A text that stays the same when each character gives some characters is given
character by character. -/
theorem eq_singleton_of_flatMap {f : Char → List Char} (hf : ∀ c ∈ cs, 1 ≤ (f c).length)
    (h : cs.flatMap f = cs) : ∀ c ∈ cs, f c = [c] := by
  have hgrows : ∀ ds : List Char, (∀ c ∈ ds, 1 ≤ (f c).length) → ds.length ≤ (ds.flatMap f).length := by
    intro ds hds
    induction ds with
    | nil => simp
    | cons d ds ih =>
      obtain ⟨hd, hrest⟩ := List.forall_mem_cons.mp hds
      have hlength := ih hrest
      rw [List.flatMap_cons, List.length_append, List.length_cons]
      omega
  induction cs with
  | nil => simp
  | cons c cs ih =>
    obtain ⟨hc, hcs⟩ := List.forall_mem_cons.mp hf
    have hlength := congrArg List.length h
    have hrest := hgrows cs hcs
    rw [List.flatMap_cons, List.length_append, List.length_cons] at hlength
    obtain ⟨x, hx⟩ := List.length_eq_one_iff.mp (show (f c).length = 1 by omega)
    rw [List.flatMap_cons, hx, List.singleton_append, List.cons.injEq] at h
    obtain ⟨rfl, htail⟩ := h
    exact List.forall_mem_cons.mpr ⟨hx, ih hcs htail⟩

-- ---------------------------------------------------------------------------
-- Names that are read as themselves
-- ---------------------------------------------------------------------------

theorem verbatim_of_parts (hcut : cut false (doubleQuotes cs) = none)
    (h : parts .outside (doubleQuotes cs) = some (cs, [])) : ∀ c ∈ cs, Verbatim c := by
  have hquote : doubleQuote ∉ cs := by
    intro hmem
    have hcount := count_quotes (by decide) h
    simp only [hmem, and_self, if_true] at hcount
    omega
  rw [doubleQuotes_of_unquoted hquote] at hcut h
  obtain ⟨hdot, hkept⟩ := parts_unquoted hquote h
  have hne : ∀ c ∈ cs, c ≠ doubleQuote := fun c hc heq => hquote (heq ▸ hc)
  have hblank : ∀ c ∈ cs, isBlank c = false := by
    intro c hc
    rw [hkept] at hc
    obtain ⟨d, hd, hcd⟩ := List.mem_flatMap.mp hc
    have hc := isKept_kept (by decide) (hne d hd) hcd
    simp only [isKept, Bool.and_eq_true, Bool.not_eq_true'] at hc
    exact hc.2
  have hlower : ∀ c ∈ cs, Quoting.outside.kept c = lowerChar c := by
    intro c hc
    rw [kept_of_ne_quote (by decide) (hne c hc), hblank c hc]
    rfl
  have hfixed := eq_singleton_of_flatMap (fun c hc => hlower c hc ▸ length_lowerChar c) hkept.symm
  have hparenthesis := parenthesis_not_mem hquote hcut
  exact fun c hc => ⟨hne c hc, fun heq => hdot (heq ▸ hc), fun heq => hparenthesis (heq ▸ hc),
    hblank c hc, hlower c hc ▸ hfixed c hc⟩

/-- What is left of a part that was written in quotes when they are taken off. -/
def doubled (part : String) : String :=
  String.ofList (doubleQuotes part.toList)

theorem stands_doubled {part : String} (hne : part ≠ "") :
    Stands (doubled part) [part] none ↔ ∀ c ∈ part.toList, Verbatim c := by
  have htext : (doubled part).toList = doubleQuotes part.toList := String.toList_ofList
  constructor
  · rintro ⟨base, ⟨hcut, rfl⟩, first, later, hparts, -, hone⟩
    obtain ⟨rfl, rfl⟩ : String.ofList first = part ∧ later = [] := by simpa using hone
    rw [htext] at hcut hparts
    rw [String.toList_ofList] at hcut hparts ⊢
    exact verbatim_of_parts hcut hparts
  · intro h
    have hquote : doubleQuote ∉ part.toList := fun hmem => (h _ hmem).quote rfl
    have hsame : (doubled part).toList = part.toList := htext.trans (doubleQuotes_of_unquoted hquote)
    refine ⟨part.toList, ⟨hsame ▸ cut_verbatim h, hsame.symm⟩, _, _, parts_verbatim h, ?_, by simp⟩
    simpa using hne

/-- A schema and a name without their quotes are read as they were written exactly when
each of their characters stands for itself. -/
theorem normalize_doubled {schema name : String} (hschema : schema ≠ "") (hname : name ≠ "") :
    normalize [doubled schema, doubled name] = .ok (join [schema, name]) ↔
      ∀ c ∈ schema.toList ++ name.toList, Verbatim c := by
  have hwrite : join [schema, name] = write [schema, name] none := rfl
  have hcons : ∀ {text own}, Stands text own none → own ≠ [] := by
    rintro text _ ⟨base, -, first, later, -, -, rfl⟩
    simp
  simp only [List.forall_mem_append, ← stands_doubled hschema, ← stands_doubled hname, normalize_ok]
  constructor
  · rintro ⟨own, arguments, hread, hkey⟩
    obtain ⟨rfl, harguments⟩ := write_inj.mp (hkey.trans hwrite)
    obtain rfl : arguments = none := by simpa using harguments
    obtain ⟨first, later, hfirst, hlater, happend⟩ := read_cons_cons.mp hread
    have hlater := read_singleton.mp hlater
    -- Each of the two names has a part at least, so it has one.
    have hlength := congrArg List.length happend
    have hfirst' := List.length_pos_iff.mpr (hcons hfirst)
    have hlater' := List.length_pos_iff.mpr (hcons hlater)
    simp only [List.length_append, List.length_cons, List.length_nil] at hlength
    have htwo : first ++ later = [schema] ++ [name] := happend
    obtain ⟨rfl, rfl⟩ := List.append_inj htwo (by simp only [List.length_singleton]; omega)
    exact ⟨hfirst, hlater⟩
  · rintro ⟨hs, hn⟩
    exact ⟨_, none, read_cons_cons.mpr ⟨_, _, hs, read_singleton.mpr hn, rfl⟩, rfl⟩

end Name

end CatalogPlan
