import CatalogPlan.Proofs.Name.Scan

/-!
# Written names

A written part is read back as it was, unless it goes without quotes although a
line end ends it: the line end is blank and is lost. No two parts are written
alike all the same, and what is written tells the parts and the arguments.
-/

namespace CatalogPlan.Name

open Text (isBlank doubleQuote lowerChar)

variable {cs ds word stop rest rest' : List Char}

-- ---------------------------------------------------------------------------
-- Parts that go without quotes
-- ---------------------------------------------------------------------------

theorem exists_stop (h : isPlainTail cs = true) : ∃ word stop, cs = word ++ stop ∧
    (∀ c ∈ word, isPlainChar c = true) ∧ (stop = [] ∨ stop = ['\n']) := by
  induction cs with
  | nil => exact ⟨[], [], rfl, by simp, .inl rfl⟩
  | cons c cs ih =>
    by_cases hline : c = '\n' ∧ cs = []
    · obtain ⟨rfl, rfl⟩ := hline
      exact ⟨[], ['\n'], rfl, by simp, .inr rfl⟩
    · have htail : isPlainTail (c :: cs) = (isPlainChar c && isPlainTail cs) :=
        isPlainTail.eq_3 c cs fun hc hcs => hline ⟨hc, hcs⟩
      rw [htail, Bool.and_eq_true] at h
      obtain ⟨word, stop, rfl, hword, hstop⟩ := ih h.2
      exact ⟨c :: word, stop, rfl, by simpa [h.1] using hword, hstop⟩

theorem exists_word (h : isPlain cs = true) : ∃ word stop, cs = word ++ stop ∧ word ≠ [] ∧
    (∀ c ∈ word, isPlainChar c = true) ∧ (stop = [] ∨ stop = ['\n']) := by
  cases cs with
  | nil => cases h
  | cons c cs =>
    rw [isPlain, Bool.and_eq_true] at h
    obtain ⟨word, stop, rfl, hword, hstop⟩ := exists_stop h.2
    refine ⟨c :: word, stop, rfl, by simp, ?_, hstop⟩
    simpa [isPlainChar, h.1] using hword

/-- A plain character stands for itself wherever it is read. -/
structure Verbatim (c : Char) : Prop where
  quote : c ≠ doubleQuote
  dot : c ≠ '.'
  parenthesis : c ≠ '('
  blank : isBlank c = false
  lower : lowerChar c = [c]

instance : DecidablePred Verbatim := fun c =>
  decidable_of_iff (c ≠ doubleQuote ∧ c ≠ '.' ∧ c ≠ '(' ∧ isBlank c = false ∧ lowerChar c = [c])
    ⟨fun ⟨hquote, hdot, hparenthesis, hblank, hlower⟩ => ⟨hquote, hdot, hparenthesis, hblank, hlower⟩,
      fun h => ⟨h.quote, h.dot, h.parenthesis, h.blank, h.lower⟩⟩

theorem verbatim_of_isPlainChar (h : isPlainChar c = true) : Verbatim c := by
  have hne : ∀ d, isPlainChar d = false → c ≠ d := by
    rintro _ hd rfl
    simp [hd] at h
  have hcode : 97 ≤ c.toNat ∧ c.toNat ≤ 122 ∨ c.toNat = 95 ∨
      48 ≤ c.toNat ∧ c.toNat ≤ 57 ∨ c.toNat = 36 := by
    simp only [isPlainChar, isPlainStart, Bool.or_eq_true, Bool.and_eq_true, decide_eq_true_eq,
      beq_iff_eq, or_assoc, Char.le_def, UInt32.le_iff_toNat_le] at h
    rcases h with h | rfl | h | rfl
    · exact .inl h
    · exact .inr (.inl rfl)
    · exact .inr (.inr (.inl h))
    · exact .inr (.inr (.inr rfl))
  have hseen : 33 ≤ c.toNat ∧ c.toNat < 128 := by omega
  have hcapital : ¬ ('A' ≤ c ∧ c ≤ 'Z') := by
    intro h
    simp only [Char.le_def, UInt32.le_iff_toNat_le] at h
    have hbetween : 65 ≤ c.toNat ∧ c.toNat ≤ 90 := h
    omega
  refine ⟨hne _ (by decide), hne _ (by decide), hne _ (by decide), ?_, ?_⟩
  · rw [← Bool.not_eq_true]
    simp only [isBlank, Bool.or_eq_true, Bool.and_eq_true, decide_eq_true_eq, beq_iff_eq]
    omega
  · simp [lowerChar, hseen.2, hcapital]

theorem parts_verbatim (h : ∀ c ∈ cs, Verbatim c) : parts .outside cs = some (cs, []) := by
  induction cs with
  | nil => rfl
  | cons c cs ih =>
    have hc := h c List.mem_cons_self
    simp [parts, hc.quote, hc.dot, hc.blank, hc.lower, ih fun d hd => h d (List.mem_cons_of_mem _ hd)]

theorem parts_word (h : ∀ c ∈ word, isPlainChar c = true) : parts .outside word = some (word, []) :=
  parts_verbatim fun c hc => verbatim_of_isPlainChar (h c hc)

-- ---------------------------------------------------------------------------
-- Parts in quotes
-- ---------------------------------------------------------------------------

theorem doubleQuotes_nil : doubleQuotes [] = [] := rfl

theorem doubleQuotes_quote (cs : List Char) :
    doubleQuotes (doubleQuote :: cs) = doubleQuote :: doubleQuote :: doubleQuotes cs := by
  simp [doubleQuotes]

theorem doubleQuotes_cons (hc : c ≠ doubleQuote) (cs : List Char) :
    doubleQuotes (c :: cs) = c :: doubleQuotes cs := by
  simp [doubleQuotes, hc]

theorem parts_quoted (cs rest : List Char) :
    parts .inside (doubleQuotes cs ++ doubleQuote :: rest) =
      (parts .leaving rest).map fun (part, later) => (cs ++ part, later) := by
  induction cs with
  | nil => simp [doubleQuotes_nil, parts]
  | cons c cs ih =>
    by_cases hc : c = doubleQuote
    · subst hc
      simp [doubleQuotes_quote, parts, ih, Function.comp_def]
    · simp [doubleQuotes_cons hc, parts, hc, ih, Function.comp_def]

-- ---------------------------------------------------------------------------
-- Reading back
-- ---------------------------------------------------------------------------

/-- A part that goes without quotes although a line end ends it. -/
def EndsLine (part : String) : Prop :=
  isPlain part.toList = true ∧ part.toList.getLast? = some '\n'

instance : DecidablePred EndsLine :=
  fun _ => inferInstanceAs (Decidable (_ ∧ _))

/-- The part that is read where a part was written. -/
def readBack (part : String) : String :=
  if EndsLine part then String.ofList part.toList.dropLast else part

theorem EndsLine.exists_word (h : EndsLine part) : ∃ word, part.toList = word ++ ['\n'] ∧
    word ≠ [] ∧ ∀ c ∈ word, isPlainChar c = true := by
  obtain ⟨hplain, hlast⟩ := h
  obtain ⟨word, stop, heq, hne, hword, rfl | rfl⟩ := Name.exists_word hplain
  · rw [heq, List.append_nil] at hlast
    exact absurd (hword _ (List.mem_of_getLast? hlast)) (by decide)
  · exact ⟨word, heq, hne, hword⟩

theorem isPlainChar_of_not_endsLine (hplain : isPlain part.toList = true) (h : ¬ EndsLine part) :
    ∀ c ∈ part.toList, isPlainChar c = true := by
  obtain ⟨word, stop, heq, -, hword, rfl | rfl⟩ := exists_word hplain
  · rwa [heq, List.append_nil]
  · exact absurd ⟨hplain, by simp [heq]⟩ h

theorem readBack_eq_self_iff : readBack part = part ↔ ¬ EndsLine part := by
  refine ⟨fun h hend => ?_, fun h => if_neg h⟩
  obtain ⟨word, heq, -⟩ := hend.exists_word
  have hlength := congrArg (fun s => s.toList.length) h
  simp [readBack, hend, heq] at hlength

theorem readBack_ne_empty (h : part ≠ "") : (readBack part).toList ≠ [] := by
  by_cases hend : EndsLine part
  · obtain ⟨word, heq, hne, -⟩ := hend.exists_word
    simpa [readBack, hend, heq] using hne
  · simpa [readBack, hend] using h

theorem parts_quote (part : String) :
    parts .outside (quote part).toList = some ((readBack part).toList, []) := by
  unfold quote
  split
  · rename_i hplain
    by_cases hend : EndsLine part
    · obtain ⟨word, heq, -, hword⟩ := hend.exists_word
      have hline : Text.Blanks ['\n'] := .singleton (by decide)
      simp [readBack, hend, heq, parts_append_blanks hline, parts_word hword]
    · rw [readBack, if_neg hend, parts_word (isPlainChar_of_not_endsLine hplain hend)]
  · rename_i hplain
    have hend : ¬ EndsLine part := fun h => hplain h.1
    rw [readBack, if_neg hend, String.toList_ofList, List.cons_append]
    simp [parts, parts_quoted]

def dotted (later : List String) : List Char :=
  later.flatMap fun part => '.' :: (quote part).toList

theorem join_cons (part : String) (later : List String) :
    (join (part :: later)).toList = (quote part).toList ++ dotted later := by
  induction later generalizing part with
  | nil => simp [join, dotted]
  | cons next later ih =>
    have hnext := ih next
    simp only [join, List.map_cons, String.intercalate_cons_cons, String.toList_append] at hnext ⊢
    rw [hnext]
    simp [dotted]

theorem parts_join (part : String) (later : List String) :
    parts .outside (join (part :: later)).toList =
      some ((readBack part).toList, later.map fun p => (readBack p).toList) := by
  rw [join_cons]
  induction later generalizing part with
  | nil => simpa [dotted] using parts_quote part
  | cons next later ih =>
    have hnext := ih next
    rw [dotted, List.flatMap_cons, List.cons_append, parts_dot (parts_quote part)]
    rw [← dotted, hnext]
    rfl

theorem split_joined {parts : List String} (hne : parts ≠ []) (hparts : ∀ p ∈ parts, p ≠ "") :
    split (join parts) = .ok (parts.map readBack) := by
  obtain ⟨part, later, rfl⟩ := List.exists_cons_of_ne_nil hne
  refine split_ok.mpr ⟨_, _, parts_join part later, ?_, by simp⟩
  have hnil : ∀ p ∈ part :: later, (readBack p).toList ≠ [] :=
    fun p hp => readBack_ne_empty (hparts p hp)
  simpa using hnil

/-- What is joined splits into the parts it was joined from, save that a part
which goes without quotes loses the line end that ends it. -/
theorem split_join (parts : List String) (hne : parts ≠ []) (hparts : ∀ p ∈ parts, p ≠ "") :
    split (join parts) = .ok (parts.map readBack) ∧
      (split (join parts) = .ok parts ↔ ∀ p ∈ parts, ¬ EndsLine p) := by
  have hread := split_joined hne hparts
  refine ⟨hread, ?_⟩
  have hself := @List.map_inj_left _ _ parts readBack id
  rw [hread, Except.ok.injEq]
  simpa only [List.map_id, id, readBack_eq_self_iff] using hself

theorem split_join_mixed : ["app", "Order Lines", "a\"b", "x\n"] ≠ [] ∧
    (∀ p ∈ ["app", "Order Lines", "a\"b", "x\n"], p ≠ "") ∧
    split (join ["app", "Order Lines", "a\"b", "x\n"]) = .ok ["app", "Order Lines", "a\"b", "x"] := by
  have hne : ∀ p ∈ ["app", "Order Lines", "a\"b", "x\n"], p ≠ "" := by decide
  refine ⟨by simp, hne, ?_⟩
  rw [(split_join _ (by simp) hne).1]
  decide

theorem split_join_line : ["a\n"] ≠ [] ∧ (∀ p ∈ ["a\n"], p ≠ "") ∧ join ["a\n"] = "a\n" ∧
    split (join ["a\n"]) = .ok ["a"] ∧ split (join ["a\n"]) ≠ .ok ["a\n"] := by
  decide

-- ---------------------------------------------------------------------------
-- Telling parts apart
-- ---------------------------------------------------------------------------

def Unquoted (rest : List Char) : Prop :=
  ∀ tail, rest ≠ doubleQuote :: tail

/-- What may follow a written part: nothing, another part or the arguments. -/
def Delimited (rest : List Char) : Prop :=
  ∀ c ∈ rest.head?, c = '.' ∨ c = '('

theorem Delimited.unquoted (h : Delimited rest) : Unquoted rest := by
  rintro tail rfl
  exact absurd (h _ rfl) (by decide)

def unbroken (c : Char) : Bool :=
  c != '.' && c != '('

theorem unbroken_of_isPlain (h : isPlain cs = true) : ∀ c ∈ cs, unbroken c = true := by
  obtain ⟨word, stop, rfl, -, hword, hstop⟩ := exists_word h
  intro c hc
  rcases List.mem_append.mp hc with hc | hc
  · have hverbatim := verbatim_of_isPlainChar (hword c hc)
    simp [unbroken, hverbatim.dot, hverbatim.parenthesis]
  · rcases hstop with rfl | rfl
    · cases hc
    · obtain rfl := List.mem_singleton.mp hc
      rfl

theorem takeWhile_exact {p : Char → Bool} (h : ∀ c ∈ cs, p c = true)
    (hrest : ∀ c ∈ rest.head?, p c = false) : (cs ++ rest).takeWhile p = cs := by
  rw [List.takeWhile_append_of_pos h]
  cases rest with
  | nil => simp
  | cons c rest => simp [hrest c rfl]

theorem takeWhile_unbroken (h : ∀ c ∈ cs, unbroken c = true) (hrest : Delimited rest) :
    (cs ++ rest).takeWhile unbroken = cs := by
  refine takeWhile_exact h fun c hc => ?_
  rcases hrest c hc with rfl | rfl <;> rfl

theorem doubleQuotes_append_inj (hrest : Unquoted rest) (hrest' : Unquoted rest')
    (h : doubleQuotes cs ++ doubleQuote :: rest = doubleQuotes ds ++ doubleQuote :: rest') :
    cs = ds ∧ rest = rest' := by
  -- A quote that closes is not doubled, for what comes next is no quote.
  induction cs generalizing ds with
  | nil =>
    cases ds with
    | nil => simpa [doubleQuotes_nil] using h
    | cons d ds =>
      by_cases hd : d = doubleQuote
      · subst hd
        simp [doubleQuotes_nil, doubleQuotes_quote, hrest _] at h
      · simp [doubleQuotes_nil, doubleQuotes_cons hd, Ne.symm hd] at h
  | cons c cs ih =>
    cases ds with
    | nil =>
      by_cases hc : c = doubleQuote
      · subst hc
        simp [doubleQuotes_nil, doubleQuotes_quote, (hrest' _).symm] at h
      · simp [doubleQuotes_nil, doubleQuotes_cons hc, hc] at h
    | cons d ds =>
      by_cases hc : c = doubleQuote <;> by_cases hd : d = doubleQuote
      · subst hc hd
        simp only [doubleQuotes_quote, List.cons_append, List.cons.injEq, true_and] at h
        obtain ⟨rfl, hrests⟩ := ih h
        exact ⟨rfl, hrests⟩
      · subst hc
        simp [doubleQuotes_quote, doubleQuotes_cons hd, Ne.symm hd] at h
      · subst hd
        simp [doubleQuotes_quote, doubleQuotes_cons hc, hc] at h
      · simp only [doubleQuotes_cons hc, doubleQuotes_cons hd, List.cons_append, List.cons.injEq] at h
        obtain ⟨rfl, hrests⟩ := ih h.2
        exact ⟨by rw [h.1], hrests⟩

/-- A written part ends where a dot or the arguments follow, so it can be told from
what comes after it. -/
theorem quote_append_inj {p q : String} (hrest : Delimited rest) (hrest' : Delimited rest')
    (h : (quote p).toList ++ rest = (quote q).toList ++ rest') : p = q ∧ rest = rest' := by
  have hmixed : ∀ {cs rest tail}, isPlain cs = true → cs ++ rest ≠ doubleQuote :: tail := by
    -- A part without quotes starts with a plain character.
    intro cs rest tail hcs heq
    obtain ⟨word, stop, rfl, hne, hword, -⟩ := exists_word hcs
    obtain ⟨c, word, rfl⟩ := List.exists_cons_of_ne_nil hne
    exact (verbatim_of_isPlainChar (hword c (by simp))).quote (List.cons.inj heq).1
  by_cases hp : isPlain p.toList = true <;> by_cases hq : isPlain q.toList = true <;>
    simp only [quote, hp, hq, if_true, if_false, Bool.false_eq_true, String.toList_ofList,
      List.cons_append, List.append_assoc] at h
  · have hword := takeWhile_unbroken (unbroken_of_isPlain hp) hrest
    rw [h, takeWhile_unbroken (unbroken_of_isPlain hq) hrest'] at hword
    obtain rfl := String.toList_inj.mp hword
    exact ⟨rfl, List.append_cancel_left h⟩
  · exact absurd h (hmixed hp)
  · exact absurd h.symm (hmixed hq)
  · obtain ⟨hparts, hrests⟩ := doubleQuotes_append_inj hrest.unquoted hrest'.unquoted (List.cons.inj h).2
    exact ⟨String.toList_inj.mp hparts, hrests⟩

theorem dotted_append_inj {ps qs : List String} (hrest : ∀ c ∈ rest.head?, c = '(')
    (hrest' : ∀ c ∈ rest'.head?, c = '(') (h : dotted ps ++ rest = dotted qs ++ rest') :
    ps = qs ∧ rest = rest' := by
  have hdelimited : ∀ {ps rest}, (∀ c ∈ rest.head?, c = '(') → Delimited (dotted ps ++ rest) := by
    intro ps rest hrest c hc
    cases ps with
    | nil => exact .inr (hrest c hc)
    | cons p ps => exact .inl (Option.some.inj hc).symm
  have hdot : ∀ {rest tail}, (∀ c ∈ rest.head?, c = '(') → rest ≠ '.' :: tail := by
    rintro _ tail hrest rfl
    exact absurd (hrest _ rfl) (by decide)
  induction ps generalizing qs with
  | nil =>
    cases qs with
    | nil => exact ⟨rfl, h⟩
    | cons q qs => exact absurd h (hdot hrest)
  | cons p ps ih =>
    cases qs with
    | nil => exact absurd h.symm (hdot hrest')
    | cons q qs =>
      simp only [dotted, List.flatMap_cons, List.cons_append, List.append_assoc, List.cons.injEq,
        true_and] at h
      obtain ⟨rfl, hlater⟩ := quote_append_inj (hdelimited hrest) (hdelimited hrest') h
      obtain ⟨rfl, hrests⟩ := ih hlater
      exact ⟨rfl, hrests⟩

theorem quote_head (part : String) : ∃ c cs, (quote part).toList = c :: cs ∧
    (isPlainStart c = true ∨ c = doubleQuote) := by
  unfold quote
  split
  · rename_i hplain
    cases hp : part.toList with
    | nil => simp [hp, isPlain] at hplain
    | cons c cs =>
      rw [hp, isPlain, Bool.and_eq_true] at hplain
      exact ⟨c, cs, rfl, .inl hplain.1⟩
  · exact ⟨doubleQuote, _, String.toList_ofList, .inr rfl⟩

theorem join_append_inj {ps qs : List String} (hrest : ∀ c ∈ rest.head?, c = '(')
    (hrest' : ∀ c ∈ rest'.head?, c = '(') (h : (join ps).toList ++ rest = (join qs).toList ++ rest') :
    ps = qs ∧ rest = rest' := by
  have hnil : (join []).toList = [] := by simp [join]
  have hempty : ∀ {q qs rest rest'}, (∀ c ∈ rest.head?, c = '(') →
      rest ≠ (join (q :: qs)).toList ++ rest' := by
    rintro q qs _ rest' hrest rfl
    obtain ⟨c, cs, hc, hstart⟩ := quote_head q
    rw [join_cons, hc] at hrest
    obtain rfl := hrest c rfl
    revert hstart
    decide
  cases ps with
  | nil =>
    cases qs with
    | nil => simpa [hnil] using h
    | cons q qs => exact absurd (by simpa [hnil] using h) (hempty hrest)
  | cons p ps =>
    cases qs with
    | nil => exact absurd (by simpa [hnil] using h.symm) (hempty hrest')
    | cons q qs =>
      refine dotted_append_inj hrest hrest' ?_
      simpa [dotted, join_cons] using h

-- ---------------------------------------------------------------------------
-- Telling names apart
-- ---------------------------------------------------------------------------

def listed : Option String → List Char
  | none => []
  | some arguments => '(' :: arguments.toList ++ [')']

theorem listed_inj {a b : Option String} (h : listed a = listed b) : a = b := by
  cases a with
  | none => cases b with
    | none => rfl
    | some t => cases h
  | some s => cases b with
    | none => cases h
    | some t => simpa [listed, String.toList_inj] using h

theorem listed_head (a : Option String) : ∀ c ∈ (listed a).head?, c = '(' := by
  cases a <;> simp [listed]

theorem write_toList (parts : List String) (arguments : Option String) :
    (write parts arguments).toList =
      (join parts).toList ++ listed (arguments.map normalizeArguments) := by
  cases arguments <;> simp [write, listed]

theorem write_inj {parts parts' : List String} {arguments arguments' : Option String} :
    write parts arguments = write parts' arguments' ↔
      parts = parts' ∧ arguments.map normalizeArguments = arguments'.map normalizeArguments := by
  constructor
  · intro h
    have htext := congrArg String.toList h
    rw [write_toList, write_toList] at htext
    obtain ⟨hparts, hlisted⟩ := join_append_inj (listed_head _) (listed_head _) htext
    exact ⟨hparts, listed_inj hlisted⟩
  · rintro ⟨rfl, harguments⟩
    rw [← String.toList_inj, write_toList, write_toList, harguments]

-- ---------------------------------------------------------------------------
-- Where the arguments begin
-- ---------------------------------------------------------------------------

theorem cut_of_forall (h : ∀ c ∈ cs, c ≠ '(' ∧ c ≠ doubleQuote) : cut false cs = none := by
  induction cs with
  | nil => rfl
  | cons c cs ih =>
    obtain ⟨hc, hcs⟩ := List.forall_mem_cons.mp h
    have hquote : (c == doubleQuote) = false := beq_eq_false_iff_ne.mpr hc.2
    simp [cut, hc.1, hquote, ih hcs]

theorem cut_quoted (cs rest : List Char) : cut true (doubleQuotes cs ++ doubleQuote :: rest) =
    (cut false rest).map fun (before, after) => (doubleQuotes cs ++ doubleQuote :: before, after) := by
  induction cs with
  | nil => simp [doubleQuotes_nil, cut]
  | cons c cs ih =>
    by_cases hc : c = doubleQuote
    · subst hc
      have hparenthesis : doubleQuote ≠ '(' := by decide
      simp [doubleQuotes_quote, cut, hparenthesis, ih, Function.comp_def]
    · have hquote : (c == doubleQuote) = false := beq_eq_false_iff_ne.mpr hc
      simp [doubleQuotes_cons hc, cut, hquote, ih, Function.comp_def]

theorem cut_quote (part : String) : cut false (quote part).toList = none := by
  unfold quote
  split
  · rename_i hplain
    obtain ⟨word, stop, heq, -, hword, hstop⟩ := exists_word hplain
    refine cut_of_forall fun c hc => ?_
    rcases List.mem_append.mp (heq ▸ hc) with hc | hc
    · have hverbatim := verbatim_of_isPlainChar (hword c hc)
      exact ⟨hverbatim.parenthesis, hverbatim.quote⟩
    · rcases hstop with rfl | rfl
      · cases hc
      · obtain rfl := List.mem_singleton.mp hc
        decide
  · have hparenthesis : doubleQuote ≠ '(' := by decide
    have hbody := cut_quoted part.toList []
    simp only [cut, Option.map_none] at hbody
    simp [cut, hparenthesis, hbody]

theorem cut_join (parts : List String) : cut false (join parts).toList = none := by
  have hclosed : ∀ part, openAfter false (quote part).toList = false :=
    fun part => openAfter_of_parts (parts_quote part)
  cases parts with
  | nil => rfl
  | cons part later =>
    rw [join_cons]
    induction later generalizing part with
    | nil => simpa [dotted] using cut_quote part
    | cons next later ih =>
      have hdot : ('.' == doubleQuote) = false := rfl
      rw [cut_append_of_none (cut_quote part), hclosed, dotted, List.flatMap_cons, List.cons_append,
        ← dotted]
      simp [cut, hdot, ih next]

theorem openAfter_join (parts : List String) : openAfter false (join parts).toList = false := by
  cases parts with
  | nil => rfl
  | cons part later => exact openAfter_of_parts (parts_join part later)

theorem splitSignature_write (parts : List String) (arguments : Option String) :
    splitSignature (write parts arguments) = .ok (join parts, arguments.map normalizeArguments) := by
  rw [splitSignature_ok]
  cases arguments with
  | none => exact .inl ⟨cut_join parts, rfl, rfl⟩
  | some arguments =>
    refine .inr ⟨(join parts).toList, (normalizeArguments arguments).toList, ?_, by simp, by simp⟩
    rw [write_toList, cut_append_of_none (cut_join parts), openAfter_join]
    simp [listed, cut]

end CatalogPlan.Name
