import CatalogPlan.Proofs.Lower
import CatalogPlan.Proofs.Name.Qualified

/-!
# Argument lists

An argument list is the words between its commas. Its normal form has one blank between
two words and a comma and a blank between two arguments, in lower case. So the blanks of
a list do not bear on it, and it is its own normal form. A canonical name is cut again
into the joined parts and the normal form of its arguments.
-/

namespace CatalogPlan.Name

open Text (isBlank Blanks trim trimEnd lowerAfter)

variable {a b cs ds l r w before rest : List Char} {ws : List (List Char)}
  {wss : List (List (List Char))}

-- ---------------------------------------------------------------------------
-- Words
-- ---------------------------------------------------------------------------

def words (cs : List Char) : List (List Char) :=
  (cs.splitOnP isBlank).filter (!·.isEmpty)

def phrase (ws : List (List Char)) : List Char :=
  [' '].intercalate ws

@[simp] theorem words_nil : words [] = [] := rfl

@[simp] theorem phrase_nil : phrase [] = [] := rfl

@[simp] theorem phrase_singleton (w : List Char) : phrase [w] = w :=
  List.intercalate_singleton

theorem phrase_cons_cons (w v : List Char) (ws : List (List Char)) :
    phrase (w :: v :: ws) = w ++ ' ' :: phrase (v :: ws) := by
  simp [phrase, List.intercalate_cons_cons]

theorem phrase_cons_word (c : Char) (w : List Char) (ws : List (List Char)) :
    phrase ((c :: w) :: ws) = c :: phrase (w :: ws) := by
  cases ws with
  | nil => simp
  | cons v ws => simp [phrase_cons_cons]

/-- Everything about words follows from what a blank does to them. -/
theorem words_append (hc : isBlank c = true) (a b : List Char) :
    words (a ++ c :: b) = words a ++ words b := by
  rw [words, List.splitOnP_append_cons a b hc, List.filter_append, words, words]

theorem words_blank (hc : isBlank c = true) (cs : List Char) : words (c :: cs) = words cs :=
  words_append hc [] cs

theorem words_of_forall (hne : w ≠ []) (hw : ∀ c ∈ w, isBlank c = false) : words w = [w] := by
  simp [words, List.splitOnP_eq_singleton hw, hne]

theorem words_blanks_append (hl : Blanks l) (cs : List Char) : words (l ++ cs) = words cs := by
  induction l with
  | nil => rfl
  | cons c l ih =>
    obtain ⟨hc, hl⟩ := hl.of_cons
    rw [List.cons_append, words_blank hc, ih hl]

theorem words_append_blanks (hr : Blanks r) (cs : List Char) : words (cs ++ r) = words cs := by
  cases r with
  | nil => rw [List.append_nil]
  | cons c r =>
    obtain ⟨hc, hr⟩ := hr.of_cons
    have hnone := words_blanks_append hr []
    rw [List.append_nil, words_nil] at hnone
    rw [words_append hc, hnone, List.append_nil]

theorem words_cons (hc : isBlank c = false) (cs : List Char) :
    ∃ w ws, words (c :: cs) = (c :: w) :: ws ∧
      ∀ b, isBlank b = false → words (b :: c :: cs) = (b :: c :: w) :: ws := by
  obtain ⟨first, later, hsplit⟩ := List.exists_cons_of_ne_nil (List.splitOnP_ne_nil isBlank cs)
  refine ⟨first, later.filter (!·.isEmpty), ?_, fun b hb => ?_⟩
  · simp [words, List.splitOnP_cons_eq_if_modifyHead, hc, hsplit]
  · simp [words, List.splitOnP_cons_eq_if_modifyHead, hb, hc, hsplit]

theorem words_ne_nil (h : trimEnd cs = cs) (hne : cs ≠ []) : words cs ≠ [] := by
  induction cs with
  | nil => exact absurd rfl hne
  | cons c cs ih =>
    by_cases hc : isBlank c = true
    · have hcs : cs ≠ [] := by
        rintro rfl
        simp [Text.trimEnd_eq_self_iff, hc] at h
      rw [words_blank hc]
      exact ih (@Text.trimEnd_of_append [c] cs h) hcs
    · obtain ⟨w, ws, hwords, -⟩ := words_cons (by simpa using hc) cs
      simp [hwords]

-- ---------------------------------------------------------------------------
-- Collapsed blanks
-- ---------------------------------------------------------------------------

theorem collapse_cons (hc : isBlank c = false) (cs : List Char) : collapse (c :: cs) = c :: collapse cs := by
  simp [collapse, hc]

theorem collapse_blank_blank (hc : isBlank c = true) (hd : isBlank d = true) (cs : List Char) :
    collapse (c :: d :: cs) = collapse (d :: cs) := by
  simp [collapse, hc, hd]

theorem collapse_blank_cons (hc : isBlank c = true) (hd : isBlank d = false) (cs : List Char) :
    collapse (c :: d :: cs) = ' ' :: collapse (d :: cs) := by
  simp [collapse, hc, hd]

theorem collapse_eq (h : trimEnd cs = cs) : collapse cs =
    if cs.head?.any isBlank then ' ' :: phrase (words cs) else phrase (words cs) := by
  induction cs with
  | nil => rfl
  | cons c cs ih =>
    have hword : isBlank c = false → words [c] = [[c]] := fun hc => words_of_forall (by simp) (by simpa)
    cases cs with
    | nil =>
      have hc : isBlank c = false := Text.trimEnd_eq_self_iff.mp h (by simp)
      simp [collapse, hc, hword]
    | cons d cs =>
      have hend : trimEnd (d :: cs) = d :: cs := @Text.trimEnd_of_append [c] _ h
      have ih := ih hend
      cases hc : isBlank c with
      | true =>
        cases hd : isBlank d with
        | true => rw [collapse_blank_blank hc hd, ih, words_blank hc]; simp [hc, hd]
        | false => rw [collapse_blank_cons hc hd, ih, words_blank hc]; simp [hc, hd]
      | false =>
        rw [collapse_cons hc, ih]
        cases hd : isBlank d with
        | true =>
          obtain ⟨v, ws, hwords⟩ := List.exists_cons_of_ne_nil (words_ne_nil hend (by simp))
          have hfirst : words (c :: d :: cs) = [c] :: words (d :: cs) := by
            rw [← List.singleton_append, words_append hd, hword hc, words_blank hd,
              List.singleton_append]
          rw [hfirst, hwords, phrase_cons_cons]
          simp [hc, hd]
        | false =>
          obtain ⟨w, ws, hwords, hfirst⟩ := words_cons hd cs
          rw [hfirst c hc, phrase_cons_word, hwords]
          simp [hc, hd]

theorem collapse_trim (cs : List Char) : collapse (trim cs) = phrase (words cs) := by
  have hwords : words (trim cs) = words cs := by
    obtain ⟨l, r, hl, hr, heq⟩ := Text.exists_trim cs
    conv_rhs => rw [heq, words_blanks_append hl, words_append_blanks hr]
  have hstart : (trim cs).head?.any isBlank = false := by
    cases htrim : trim cs with
    | nil => rfl
    | cons c rest => exact Text.isBlank_head_trim htrim
  rw [collapse_eq (Text.trimEnd_trim cs), hstart, hwords]
  rfl

-- ---------------------------------------------------------------------------
-- Arguments
-- ---------------------------------------------------------------------------

def argumentWords (cs : List Char) : List (List (List Char)) :=
  (cs.splitOn ',').map words

def listing (wss : List (List (List Char))) : List Char :=
  [',', ' '].intercalate (wss.map phrase)

theorem listing_cons_cons (ws vs : List (List Char)) (wss : List (List (List Char))) :
    listing (ws :: vs :: wss) = phrase ws ++ ',' :: ' ' :: listing (vs :: wss) := by
  simp [listing, List.intercalate_cons_cons]

theorem pieces_eq (cs : List Char) : pieces cs = cs.splitOn ',' := by
  induction cs with
  | nil => rfl
  | cons c cs ih =>
    obtain ⟨first, later, hsplit⟩ := List.exists_cons_of_ne_nil (List.splitOn_ne_nil ',' cs)
    by_cases hc : c = ',' <;> simp [pieces, ih, List.splitOn_cons_eq_if_modifyHead, hc, hsplit]

/-- The normal form of an argument list lists its words, in lower case. -/
theorem normalizeArguments_eq (arguments : String) : normalizeArguments arguments =
    String.ofList (lowerAfter [] (listing (argumentWords arguments.toList))) := by
  simp [normalizeArguments, listing, argumentWords, pieces_eq, collapse_trim, Function.comp_def]

theorem argumentWords_comma (a b : List Char) :
    argumentWords (a ++ ',' :: b) = argumentWords a ++ argumentWords b := by
  rw [argumentWords, List.splitOn_append_cons_self, List.map_append, argumentWords, argumentWords]

theorem argumentWords_of_not_mem (h : ',' ∉ cs) : argumentWords cs = [words cs] := by
  rw [argumentWords, List.splitOn_eq_singleton h, List.map_singleton]

theorem splitOn_append (h : ',' ∉ a) (b : List Char) :
    (a ++ b).splitOn ',' = (b.splitOn ',').modifyHead (a ++ ·) := by
  induction a with
  | nil => cases hb : b.splitOn ',' <;> simp [hb]
  | cons c a ih =>
    obtain ⟨hc, ha⟩ := not_or.mp (List.mem_cons.not.mp h)
    have hcomma : (c == ',') = false := beq_eq_false_iff_ne.mpr (Ne.symm hc)
    rw [List.cons_append, List.splitOn_cons_eq_if_modifyHead, hcomma, ih ha]
    simp [List.modifyHead_modifyHead, Function.comp_def]

theorem not_mem_blanks (h : Blanks l) : ',' ∉ l :=
  fun hmem => absurd (h _ hmem) (by decide)

theorem argumentWords_blanks_append (hl : Blanks l) (cs : List Char) :
    argumentWords (l ++ cs) = argumentWords cs := by
  obtain ⟨first, later, hsplit⟩ := List.exists_cons_of_ne_nil (List.splitOn_ne_nil ',' cs)
  rw [argumentWords, argumentWords, splitOn_append (not_mem_blanks hl), hsplit]
  simp [words_blanks_append hl]

theorem exists_last (cs : List Char) : ',' ∉ cs ∨ ∃ a b, cs = a ++ ',' :: b ∧ ',' ∉ b := by
  refine or_iff_not_imp_left.mpr fun h => ?_
  obtain ⟨b, a, heq, hb⟩ := List.eq_append_cons_of_mem (List.mem_reverse.mpr (not_not.mp h))
  refine ⟨a.reverse, b.reverse, ?_, by simpa using hb⟩
  simpa using congrArg List.reverse heq

theorem argumentWords_append_blanks (hr : Blanks r) (cs : List Char) :
    argumentWords (cs ++ r) = argumentWords cs := by
  have hlast : ∀ b, ',' ∉ b → argumentWords (b ++ r) = argumentWords b := by
    intro b hb
    have happend : ',' ∉ b ++ r := by simp [hb, not_mem_blanks hr]
    rw [argumentWords_of_not_mem happend, argumentWords_of_not_mem hb, words_append_blanks hr]
  rcases exists_last cs with h | ⟨a, b, rfl, hb⟩
  · exact hlast cs h
  · rw [List.append_assoc, List.cons_append, argumentWords_comma, argumentWords_comma, hlast b hb]

theorem argumentWords_blank (a : List Char) : ∃ join : List (List (List Char)) → List (List (List Char)),
    ∀ c b, isBlank c = true → argumentWords (a ++ c :: b) = join (argumentWords b) := by
  have hlast : ∀ a c b, ',' ∉ a → isBlank c = true →
      argumentWords (a ++ c :: b) = (argumentWords b).modifyHead (words a ++ ·) := by
    intro a c b ha hc
    obtain ⟨first, later, hsplit⟩ := List.exists_cons_of_ne_nil (List.splitOn_ne_nil ',' b)
    have happend : ',' ∉ a ++ [c] := by
      have hne : ',' ≠ c := by
        rintro rfl
        revert hc
        decide
      simp [ha, hne]
    rw [List.append_cons, argumentWords, splitOn_append happend, argumentWords, hsplit]
    simp [words_append hc]
  rcases exists_last a with h | ⟨a, a', rfl, ha'⟩
  · exact ⟨_, fun c b hc => hlast a c b h hc⟩
  · refine ⟨fun wss => argumentWords a ++ wss.modifyHead (words a' ++ ·), fun c b hc => ?_⟩
    rw [List.append_assoc, List.cons_append, argumentWords_comma, hlast a' c b ha' hc]

-- ---------------------------------------------------------------------------
-- Reading words back
-- ---------------------------------------------------------------------------

def Solid (w : List Char) : Prop :=
  w ≠ [] ∧ ∀ c ∈ w, isBlank c = false ∧ c ≠ ','

def Proper (wss : List (List (List Char))) : Prop :=
  wss ≠ [] ∧ ∀ ws ∈ wss, ∀ w ∈ ws, Solid w

theorem words_phrase (h : ∀ w ∈ ws, Solid w) : words (phrase ws) = ws := by
  have hone : ∀ w, Solid w → words w = [w] := fun w hw => words_of_forall hw.1 fun c hc => (hw.2 c hc).1
  induction ws with
  | nil => rfl
  | cons w ws ih =>
    obtain ⟨hw, hws⟩ := List.forall_mem_cons.mp h
    cases ws with
    | nil => rw [phrase_singleton, hone w hw]
    | cons v ws => rw [phrase_cons_cons, words_append (by decide), hone w hw, ih hws, List.singleton_append]

theorem not_mem_phrase (h : ∀ w ∈ ws, Solid w) : ',' ∉ phrase ws := by
  induction ws with
  | nil => simp
  | cons w ws ih =>
    obtain ⟨hw, hws⟩ := List.forall_mem_cons.mp h
    have hcomma : ',' ∉ w := fun hmem => (hw.2 _ hmem).2 rfl
    cases ws with
    | nil => rwa [phrase_singleton]
    | cons v ws => simpa [phrase_cons_cons, hcomma] using ih hws

theorem argumentWords_listing (h : Proper wss) : argumentWords (listing wss) = wss := by
  obtain ⟨hne, hsolid⟩ := h
  induction wss with
  | nil => exact absurd rfl hne
  | cons ws wss ih =>
    obtain ⟨hws, hwss⟩ := List.forall_mem_cons.mp hsolid
    have hfirst : argumentWords (phrase ws) = [ws] := by
      rw [argumentWords_of_not_mem (not_mem_phrase hws), words_phrase hws]
    cases wss with
    | nil => simpa [listing] using hfirst
    | cons vs wss =>
      have hlater : argumentWords (' ' :: listing (vs :: wss)) = argumentWords (listing (vs :: wss)) :=
        argumentWords_blanks_append (.singleton (by decide)) _
      rw [listing_cons_cons, argumentWords_comma, hfirst, hlater, ih (by simp) hwss, List.singleton_append]

theorem of_mem_splitOnP {p : Char → Bool} (h : w ∈ cs.splitOnP p) : ∀ c ∈ w, c ∈ cs ∧ p c = false := by
  induction cs generalizing w with
  | nil => simp_all
  | cons d cs ih =>
    obtain ⟨first, later, hsplit⟩ := List.exists_cons_of_ne_nil (List.splitOnP_ne_nil p cs)
    rw [hsplit] at ih
    rw [List.splitOnP_cons_eq_if_modifyHead, hsplit] at h
    have htail : w ∈ first :: later → ∀ c ∈ w, c ∈ d :: cs ∧ p c = false :=
      fun hw c hc => ⟨List.mem_cons_of_mem d (ih hw c hc).1, (ih hw c hc).2⟩
    split at h
    · rcases List.mem_cons.mp h with rfl | h
      · simp
      · exact htail h
    · rename_i hd
      rcases List.mem_cons.mp h with rfl | h
      · refine List.forall_mem_cons.mpr ⟨⟨List.mem_cons_self, by simpa using hd⟩, fun c hc => ?_⟩
        have hfirst := ih List.mem_cons_self c hc
        exact ⟨List.mem_cons_of_mem d hfirst.1, hfirst.2⟩
      · exact htail (List.mem_cons_of_mem _ h)

theorem proper_argumentWords (cs : List Char) : Proper (argumentWords cs) := by
  refine ⟨by simp [argumentWords, List.splitOn_ne_nil], fun ws hws w hw => ?_⟩
  obtain ⟨piece, hpiece, rfl⟩ := List.mem_map.mp hws
  obtain ⟨hmem, hne⟩ := List.mem_filter.mp hw
  refine ⟨by simpa using hne, fun c hc => ?_⟩
  obtain ⟨hc, hblank⟩ := of_mem_splitOnP hmem c hc
  exact ⟨hblank, by simpa using (of_mem_splitOnP hpiece c hc).2⟩

-- ---------------------------------------------------------------------------
-- Lower case
-- ---------------------------------------------------------------------------

theorem lowerAfter_solid (hw : ∀ c ∈ w, isBlank c = false ∧ c ≠ ',') (before rest : List Char) :
    ∃ v before', lowerAfter before (w ++ rest) = v ++ lowerAfter before' rest ∧
      (w ≠ [] → v ≠ []) ∧ ∀ c ∈ v, isBlank c = false ∧ c ≠ ',' := by
  induction w generalizing before with
  | nil => exact ⟨[], before, rfl, by simp, by simp⟩
  | cons c w ih =>
    obtain ⟨hc, hw⟩ := List.forall_mem_cons.mp hw
    obtain ⟨v, before', hv, -, hsolid⟩ := ih hw (c :: before)
    have hlower : ∀ d ∈ Text.lowerIn before c (w ++ rest), isBlank d = false ∧ d ≠ ',' := by
      rcases Text.lowerIn_cases before c (w ++ rest) with ⟨hself, -⟩ | hsmall
      · simpa [hself] using hc
      · intro d hd
        obtain ⟨hkept, hcomma, -⟩ := Text.isSmall_iff.mp (hsmall d hd)
        simp only [Text.isKept, Bool.and_eq_true, Bool.not_eq_true'] at hkept
        exact ⟨hkept.2, hcomma⟩
    refine ⟨Text.lowerIn before c (w ++ rest) ++ v, before', ?_, ?_, ?_⟩
    · rw [List.cons_append, Text.lowerAfter_cons, hv, List.append_assoc]
    · simp [Text.lowerIn_ne_nil]
    · exact List.forall_mem_append.mpr ⟨hlower, hsolid⟩

theorem lowerAfter_phrase (h : ∀ w ∈ ws, Solid w) (before rest : List Char) :
    ∃ vs before', lowerAfter before (phrase ws ++ rest) = phrase vs ++ lowerAfter before' rest ∧
      vs.length = ws.length ∧ ∀ v ∈ vs, Solid v := by
  induction ws generalizing before with
  | nil => exact ⟨[], before, rfl, rfl, by simp⟩
  | cons w ws ih =>
    obtain ⟨hw, hws⟩ := List.forall_mem_cons.mp h
    cases ws with
    | nil =>
      obtain ⟨v, before', hv, hne, hsolid⟩ := lowerAfter_solid hw.2 before rest
      exact ⟨[v], before', by simpa using hv, rfl, by simpa using ⟨hne hw.1, hsolid⟩⟩
    | cons u ws =>
      obtain ⟨v, between, hv, hne, hsolid⟩ :=
        lowerAfter_solid hw.2 before (' ' :: (phrase (u :: ws) ++ rest))
      obtain ⟨vs, before', hvs, hlength, hsolids⟩ := ih hws (' ' :: between)
      obtain ⟨v', vs, rfl⟩ := List.exists_cons_of_length_eq_add_one hlength
      refine ⟨v :: v' :: vs, before', ?_, by simpa using hlength, ?_⟩
      · have hspace : lowerAfter between (' ' :: (phrase (u :: ws) ++ rest)) =
            ' ' :: lowerAfter (' ' :: between) (phrase (u :: ws) ++ rest) := rfl
        rw [phrase_cons_cons, phrase_cons_cons, List.append_assoc, List.cons_append, hv, hspace, hvs]
        simp
      · exact List.forall_mem_cons.mpr ⟨⟨hne hw.1, hsolid⟩, hsolids⟩

theorem lowerAfter_listing (h : Proper wss) (before : List Char) :
    ∃ vss, lowerAfter before (listing wss) = listing vss ∧ vss.length = wss.length ∧ Proper vss := by
  obtain ⟨hne, hsolid⟩ := h
  induction wss generalizing before with
  | nil => exact absurd rfl hne
  | cons ws wss ih =>
    obtain ⟨hws, hwss⟩ := List.forall_mem_cons.mp hsolid
    cases wss with
    | nil =>
      obtain ⟨vs, before', hvs, -, hsolids⟩ := lowerAfter_phrase hws before []
      refine ⟨[vs], ?_, rfl, by simp, by simpa using hsolids⟩
      simpa [listing, lowerAfter] using hvs
    | cons us wss =>
      obtain ⟨vs, between, hvs, -, hsolids⟩ :=
        lowerAfter_phrase hws before (',' :: ' ' :: listing (us :: wss))
      obtain ⟨vss, hvss, hlength, -, hproper⟩ := ih (' ' :: ',' :: between) (by simp) hwss
      obtain ⟨vs', vss, rfl⟩ := List.exists_cons_of_length_eq_add_one hlength
      refine ⟨vs :: vs' :: vss, ?_, by simpa using hlength, by simp, ?_⟩
      · have hcomma : lowerAfter between (',' :: ' ' :: listing (us :: wss)) =
            ',' :: ' ' :: lowerAfter (' ' :: ',' :: between) (listing (us :: wss)) := rfl
        rw [listing_cons_cons, listing_cons_cons, hvs, hcomma, hvss]
      · exact List.forall_mem_cons.mpr ⟨hsolids, hproper⟩

theorem normalizeArguments_idem (arguments : String) :
    normalizeArguments (normalizeArguments arguments) = normalizeArguments arguments := by
  obtain ⟨wss, hlower, -, hproper⟩ := lowerAfter_listing (proper_argumentWords arguments.toList) []
  rw [normalizeArguments_eq arguments, normalizeArguments_eq, String.toList_ofList, hlower,
    argumentWords_listing hproper, ← hlower, Text.lowerAfter_lowerAfter]

-- ---------------------------------------------------------------------------
-- Blanks that do not matter
-- ---------------------------------------------------------------------------

/-- Two argument lists differ in how long their runs of blanks are, in the blanks around
commas and in those at the ends. -/
inductive Respaced : List Char → List Char → Prop
  | refl (cs : List Char) : Respaced cs cs
  | trans {cs ds es : List Char} (h : Respaced cs ds) (h' : Respaced ds es) : Respaced cs es
  | run (a b : List Char) {l l' : List Char} (hl : Blanks l) (hl' : Blanks l') (hne : l ≠ [])
      (hne' : l' ≠ []) : Respaced (a ++ l ++ b) (a ++ l' ++ b)
  | comma (a b : List Char) {l l' r r' : List Char} (hl : Blanks l) (hl' : Blanks l')
      (hr : Blanks r) (hr' : Blanks r') : Respaced (a ++ l ++ ',' :: (r ++ b)) (a ++ l' ++ ',' :: (r' ++ b))
  | ends (cs : List Char) {l l' r r' : List Char} (hl : Blanks l) (hl' : Blanks l') (hr : Blanks r)
      (hr' : Blanks r') : Respaced (l ++ cs ++ r) (l' ++ cs ++ r')

theorem Respaced.argumentWords_eq (h : Respaced cs ds) : argumentWords cs = argumentWords ds := by
  induction h with
  | refl => rfl
  | trans h h' ih ih' => rw [ih, ih']
  | run a b hl hl' hne hne' =>
    obtain ⟨join, hjoin⟩ := argumentWords_blank a
    have hrun : ∀ {l}, Blanks l → l ≠ [] → argumentWords (a ++ l ++ b) = join (argumentWords b) := by
      intro l hl hne
      obtain ⟨c, l, rfl⟩ := List.exists_cons_of_ne_nil hne
      obtain ⟨hc, hl⟩ := hl.of_cons
      rw [List.append_assoc, List.cons_append, hjoin c _ hc, argumentWords_blanks_append hl]
    rw [hrun hl hne, hrun hl' hne']
  | comma a b hl hl' hr hr' =>
    rw [argumentWords_comma, argumentWords_comma, argumentWords_append_blanks hl,
      argumentWords_append_blanks hl', argumentWords_blanks_append hr, argumentWords_blanks_append hr']
  | ends cs hl hl' hr hr' =>
    rw [argumentWords_append_blanks hr, argumentWords_append_blanks hr',
      argumentWords_blanks_append hl, argumentWords_blanks_append hl']

theorem Respaced.normal_eq {arguments arguments' : String}
    (h : Respaced arguments.toList arguments'.toList) :
    normalizeArguments arguments = normalizeArguments arguments' := by
  rw [normalizeArguments_eq, normalizeArguments_eq, h.argumentWords_eq]

-- ---------------------------------------------------------------------------
-- Signatures
-- ---------------------------------------------------------------------------

variable {text : String} {own names : List String} {arguments : String}

theorem read_call : read [text] = .ok (own, some arguments) ↔ ∃ name r, Blanks r ∧
    text.toList = name.toList ++ '(' :: (arguments.toList ++ ')' :: r) ∧
      read [name] = .ok (own, none) := by
  simp only [read_singleton]
  constructor
  · rintro ⟨base, ⟨after, hcut, htrim⟩, hown⟩
    obtain ⟨r, hr, hafter⟩ := Text.exists_trimEnd after
    refine ⟨String.ofList base, r, hr, ?_, base, ⟨?_, ?_⟩, hown⟩
    · rw [cut_eq_some hcut, String.toList_ofList, hafter, htrim, List.append_assoc, List.singleton_append]
    · rw [String.toList_ofList, cut_before hcut]
    · rw [String.toList_ofList]
  · rintro ⟨name, r, hr, htext, _, ⟨hcut, rfl⟩, hown⟩
    refine ⟨name.toList, ⟨arguments.toList ++ ')' :: r, ?_, ?_⟩, hown⟩
    · rw [htext, cut_append_of_none hcut, hown.closed]
      simp [cut]
    · rw [List.append_cons, Text.trimEnd_append_blanks _ hr, Text.trimEnd_concat (by decide)]

theorem normalize_call (h : read names = .ok (own, some arguments)) :
    normalize names = .ok (join own ++ "(" ++ normalizeArguments arguments ++ ")") :=
  normalize_ok.mpr ⟨own, some arguments, h, rfl⟩

/-- Arguments may be put after every name that is accepted without. The key is cut again
into the joined parts and a text that is its own normal form, and the blanks of the
arguments do not bear on it. -/
theorem signature_normal :
    (∀ text own arguments, read [text] = .ok (own, some arguments) ↔ ∃ name r, Blanks r ∧
      text.toList = name.toList ++ '(' :: (arguments.toList ++ ')' :: r) ∧
        read [name] = .ok (own, none)) ∧
    (∀ names own arguments, read names = .ok (own, some arguments) →
      ∃ key normal, normalize names = .ok key ∧ splitSignature key = .ok (join own, some normal) ∧
        key = join own ++ "(" ++ normal ++ ")" ∧ normalizeArguments normal = normal) ∧
    ∀ names names' own arguments arguments', read names = .ok (own, some arguments) →
      read names' = .ok (own, some arguments') → Respaced arguments.toList arguments'.toList →
        ∃ key, normalize names = .ok key ∧ normalize names' = .ok key := by
  refine ⟨fun _ _ _ => read_call, fun names own arguments h => ?_,
    fun names names' own arguments arguments' h h' hrespaced => ?_⟩
  · exact ⟨_, _, normalize_call h, splitSignature_write own (some arguments), rfl,
      normalizeArguments_idem arguments⟩
  · refine ⟨_, normalize_call h, ?_⟩
    rw [normalize_call h', hrespaced.normal_eq]

theorem signature_normal_blanks :
    read ["App.F( INT ,text )"] = .ok (["app", "f"], some " INT ,text ") ∧
    read ["app.f(INT, text)"] = .ok (["app", "f"], some "INT, text") ∧
    Respaced " INT ,text ".toList "INT, text".toList ∧
    (∃ key normal, normalize ["App.F( INT ,text )"] = .ok key ∧
      splitSignature key = .ok ("app.f", some normal) ∧ normalizeArguments normal = normal) ∧
    ∃ key, normalize ["App.F( INT ,text )"] = .ok key ∧ normalize ["app.f(INT, text)"] = .ok key := by
  have hread : read ["App.F( INT ,text )"] = .ok (["app", "f"], some " INT ,text ") := by decide
  have hread' : read ["app.f(INT, text)"] = .ok (["app", "f"], some "INT, text") := by decide
  have hblank : Blanks [' '] := .singleton (by decide)
  have hrespaced : Respaced " INT ,text ".toList "INT, text".toList :=
    .trans (.ends "INT ,text".toList hblank .nil hblank .nil)
      (.comma "INT".toList "text".toList hblank .nil .nil hblank)
  obtain ⟨key, normal, hkey, hcut, -, hnormal⟩ := signature_normal.2.1 _ _ _ hread
  exact ⟨hread, hread', hrespaced, ⟨key, normal, hkey, hcut, hnormal⟩,
    signature_normal.2.2 _ _ _ _ _ hread hread' hrespaced⟩

end CatalogPlan.Name
