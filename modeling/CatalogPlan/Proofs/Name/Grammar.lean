import CatalogPlan.Proofs.Name.Written

/-!
# The grammar of dotted names

Every text is in exactly one way a sequence of quoted segments, dots and other
characters, with at most a quote left open at its end. The parts of a name are what its
segments stand for between the dots. A name is refused when a quote is left open or a
part is empty, and for nothing else.
-/

namespace CatalogPlan.Name

open Text (isBlank doubleQuote lowerChar)

/-- A piece of a dotted name: a quoted text as it is meant, a dot, or any other character. -/
inductive Segment where
  | quoted (body : List Char)
  | dot
  | bare (c : Char)

namespace Segment

def isDot : Segment → Bool
  | dot => true
  | _ => false

def value : Segment → List Char
  | quoted body => body
  | dot => []
  | bare c => if isBlank c then [] else lowerChar c

end Segment

/-- A text is the segments, and after them a quote with the given text if one is left
open. The quote that closes a segment has no other quote right after it. -/
inductive Reads : List Char → List Segment → Option (List Char) → Prop
  | done : Reads [] [] none
  | opened (body : List Char) : Reads (doubleQuote :: doubleQuotes body) [] (some body)
  | quoted (body : List Char) (hrest : Unquoted rest) (h : Reads rest segments left) :
      Reads (doubleQuote :: (doubleQuotes body ++ doubleQuote :: rest)) (.quoted body :: segments) left
  | dot (h : Reads rest segments left) : Reads ('.' :: rest) (.dot :: segments) left
  | bare (hquote : c ≠ doubleQuote) (hdot : c ≠ '.') (h : Reads rest segments left) :
      Reads (c :: rest) (.bare c :: segments) left

def partValues (segments : List Segment) : List (List Char) :=
  (segments.splitOnP Segment.isDot).map fun own => own.flatMap Segment.value

@[simp] theorem partValues_dot (segments : List Segment) :
    partValues (.dot :: segments) = [] :: partValues segments := by
  simp [partValues, List.splitOnP_cons_eq_if_modifyHead, Segment.isDot]

theorem partValues_cons {s : Segment} (hs : s.isDot = false) (segments : List Segment) :
    partValues (s :: segments) = (partValues segments).modifyHead (s.value ++ ·) := by
  rw [partValues, partValues, List.splitOnP_cons_eq_if_modifyHead, hs]
  cases segments.splitOnP Segment.isDot <;> rfl

-- ---------------------------------------------------------------------------
-- Every text is read in one way
-- ---------------------------------------------------------------------------

variable {cs ds body rest : List Char}

/-- After an opening quote there is one that closes, or the quote is left open. -/
theorem closed_or_open : (cs : List Char) →
    (∃ body rest, Unquoted rest ∧ cs = doubleQuotes body ++ doubleQuote :: rest) ∨
      ∃ body, cs = doubleQuotes body
  | [] => .inr ⟨[], rfl⟩
  | [c] => by
    by_cases hc : c = doubleQuote
    · exact .inl ⟨[], [], by simp [Unquoted], by simp [hc, doubleQuotes]⟩
    · exact .inr ⟨[c], by simp [hc, doubleQuotes]⟩
  | c :: d :: rest => by
    by_cases hc : c = doubleQuote
    · by_cases hd : d = doubleQuote
      · rcases closed_or_open rest with ⟨body, tail, htail, rfl⟩ | ⟨body, rfl⟩
        · exact .inl ⟨doubleQuote :: body, tail, htail, by simp [hc, hd, doubleQuotes]⟩
        · exact .inr ⟨doubleQuote :: body, by simp [hc, hd, doubleQuotes]⟩
      · refine .inl ⟨[], d :: rest, ?_, by simp [hc, doubleQuotes]⟩
        exact fun tail h => hd (List.cons.inj h).1
    · rcases closed_or_open (d :: rest) with ⟨body, tail, htail, heq⟩ | ⟨body, heq⟩
      · exact .inl ⟨c :: body, tail, htail, by simp [heq, hc, doubleQuotes]⟩
      · exact .inr ⟨c :: body, by simp [heq, hc, doubleQuotes]⟩

theorem exists_reads (cs : List Char) : ∃ segments left, Reads cs segments left := by
  induction hn : cs.length using Nat.strongRecOn generalizing cs with
  | ind n ih =>
    subst hn
    cases cs with
    | nil => exact ⟨[], none, .done⟩
    | cons c rest =>
      by_cases hquote : c = doubleQuote
      · subst hquote
        rcases closed_or_open rest with ⟨body, tail, htail, rfl⟩ | ⟨body, rfl⟩
        · obtain ⟨segments, left, h⟩ := ih tail.length (by simp; omega) tail rfl
          exact ⟨_, _, .quoted body htail h⟩
        · exact ⟨_, _, .opened body⟩
      · obtain ⟨segments, left, h⟩ := ih rest.length (by simp) rest rfl
        by_cases hdot : c = '.'
        · subst hdot
          exact ⟨_, _, .dot h⟩
        · exact ⟨_, _, .bare hquote hdot h⟩

theorem doubleQuotes_ne_closed (hrest : Unquoted rest) :
    doubleQuotes cs ≠ doubleQuotes ds ++ doubleQuote :: rest := by
  induction cs generalizing ds with
  | nil => simp [doubleQuotes_nil]
  | cons c cs ih =>
    intro h
    cases ds with
    | nil =>
      by_cases hc : c = doubleQuote
      · subst hc
        simp only [doubleQuotes_quote, doubleQuotes_nil, List.nil_append, List.cons.injEq, true_and] at h
        exact hrest _ h.symm
      · simp [doubleQuotes_cons hc, doubleQuotes_nil, hc] at h
    | cons d ds =>
      by_cases hc : c = doubleQuote <;> by_cases hd : d = doubleQuote
      · subst hc hd
        simp only [doubleQuotes_quote, List.cons_append, List.cons.injEq, true_and] at h
        exact ih h
      · subst hc
        simp [doubleQuotes_quote, doubleQuotes_cons hd, Ne.symm hd] at h
      · subst hd
        simp [doubleQuotes_quote, doubleQuotes_cons hc, hc] at h
      · simp only [doubleQuotes_cons hc, doubleQuotes_cons hd, List.cons_append, List.cons.injEq] at h
        exact ih h.2

theorem doubleQuotes_inj (h : doubleQuotes cs = doubleQuotes ds) : cs = ds := by
  have hnil : Unquoted [] := by simp [Unquoted]
  exact (doubleQuotes_append_inj hnil hnil (by rw [h])).1

theorem Reads.unique (h : Reads cs segments left) (h' : Reads ds segments' left') (heq : cs = ds) :
    segments = segments' ∧ left = left' := by
  have hdot : doubleQuote ≠ '.' := by decide
  induction h generalizing ds segments' left' with
  | done =>
    cases h' with
    | done => exact ⟨rfl, rfl⟩
    | _ => cases heq
  | opened body =>
    cases h' with
    | done => cases heq
    | opened body' => exact ⟨rfl, congrArg some (doubleQuotes_inj (List.cons.inj heq).2)⟩
    | quoted body' hrest' => exact absurd (List.cons.inj heq).2 (doubleQuotes_ne_closed hrest')
    | dot => exact absurd (List.cons.inj heq).1 hdot
    | bare hquote' => exact absurd (List.cons.inj heq).1.symm hquote'
  | quoted body hrest h ih =>
    cases h' with
    | done => cases heq
    | opened body' => exact absurd (List.cons.inj heq).2.symm (doubleQuotes_ne_closed hrest)
    | quoted body' hrest' h' =>
      obtain ⟨rfl, hrests⟩ := doubleQuotes_append_inj hrest hrest' (List.cons.inj heq).2
      obtain ⟨rfl, rfl⟩ := ih h' hrests
      exact ⟨rfl, rfl⟩
    | dot => exact absurd (List.cons.inj heq).1 hdot
    | bare hquote' => exact absurd (List.cons.inj heq).1.symm hquote'
  | dot h ih =>
    cases h' with
    | done => cases heq
    | opened | quoted => exact absurd (List.cons.inj heq).1.symm hdot
    | dot h' =>
      obtain ⟨rfl, rfl⟩ := ih h' (List.cons.inj heq).2
      exact ⟨rfl, rfl⟩
    | bare _ hdot' => exact absurd (List.cons.inj heq).1.symm hdot'
  | bare hquote hdots h ih =>
    cases h' with
    | done => cases heq
    | opened | quoted => exact absurd (List.cons.inj heq).1 hquote
    | dot => exact absurd (List.cons.inj heq).1 hdots
    | bare _ _ h' =>
      obtain ⟨rfl, hrests⟩ := List.cons.inj heq
      obtain ⟨rfl, rfl⟩ := ih h' hrests
      exact ⟨rfl, rfl⟩

-- ---------------------------------------------------------------------------
-- A scan takes the parts of what is read
-- ---------------------------------------------------------------------------

theorem parts_leaving (h : Unquoted cs) : parts .leaving cs = parts .outside cs := by
  cases cs with
  | nil => rfl
  | cons c rest =>
    have hc : c ≠ doubleQuote := fun heq => h rest (heq ▸ rfl)
    simp [parts, hc]

theorem parts_opened (body : List Char) : parts .inside (doubleQuotes body) = none := by
  induction body with
  | nil => rfl
  | cons c body ih =>
    by_cases hc : c = doubleQuote
    · subst hc
      simp [doubleQuotes_quote, parts, ih]
    · simp [doubleQuotes_cons hc, parts, hc, ih]

theorem Reads.parts_eq (h : Reads cs segments left) :
    (parts .outside cs).map (fun (part, later) => part :: later) =
      left.elim (some (partValues segments)) fun _ => none := by
  have hdot : '.' ≠ doubleQuote := by decide
  induction h with
  | done => rfl
  | opened body => simp [parts, parts_opened]
  | @quoted rest segments left body hrest h ih =>
    have hstep : (parts .outside (doubleQuote :: (doubleQuotes body ++ doubleQuote :: rest))).map
        (fun (part, later) => part :: later) =
          ((parts .outside rest).map fun (part, later) => part :: later).map
            (List.modifyHead (body ++ ·)) := by
      simp [parts, parts_quoted, parts_leaving hrest, Function.comp_def]
    rw [hstep, ih, partValues_cons rfl]
    cases left <;> rfl
  | @dot rest segments left h ih =>
    have hstep : (parts .outside ('.' :: rest)).map (fun (part, later) => part :: later) =
        ((parts .outside rest).map fun (part, later) => part :: later).map ([] :: ·) := by
      simp [parts, hdot, Function.comp_def]
    rw [hstep, ih, partValues_dot]
    cases left <;> rfl
  | @bare c rest segments left hquote hdots h ih =>
    have hstep : (parts .outside (c :: rest)).map (fun (part, later) => part :: later) =
        ((parts .outside rest).map fun (part, later) => part :: later).map
          (List.modifyHead ((Segment.bare c).value ++ ·)) := by
      by_cases hblank : isBlank c = true <;>
        simp [parts, hquote, hdots, hblank, Segment.value, Function.comp_def]
    rw [hstep, ih, partValues_cons rfl]
    cases left <;> rfl

theorem Reads.split_eq {text : String} (h : Reads text.toList segments left) :
    split text = left.elim
      (if [] ∈ partValues segments then .error (.emptyPart text)
        else .ok ((partValues segments).map String.ofList))
      fun _ => .error (.unterminatedQuote text) := by
  cases left with
  | some body => exact split_open (Option.map_eq_none_iff.mp h.parts_eq)
  | none =>
    obtain ⟨⟨part, later⟩, hparts, hvalues⟩ := Option.map_eq_some_iff.mp h.parts_eq
    have hempty : (partValues segments).any List.isEmpty = true ↔ [] ∈ partValues segments := by
      simp only [List.any_eq_true, List.isEmpty_iff, exists_eq_right]
    simp only [split, hparts, hvalues, hempty, Option.elim_none]

/-- Splitting a text gives the parts of the segments that it is read as, and fails exactly
where a quote is left open or a part is empty. -/
theorem split_grammar (text : String) :
    (∃! reading : List Segment × Option (List Char), Reads text.toList reading.1 reading.2) ∧
    (∀ own, split text = .ok own ↔ ∃ segments, Reads text.toList segments none ∧
      [] ∉ partValues segments ∧ (partValues segments).map String.ofList = own) ∧
    ∀ fault, split text = .error fault ↔
      (fault = .unterminatedQuote text ∧ ∃ segments body, Reads text.toList segments (some body)) ∨
      (fault = .emptyPart text ∧ ∃ segments, Reads text.toList segments none ∧
        [] ∈ partValues segments) := by
  obtain ⟨segments, left, h⟩ := exists_reads text.toList
  refine ⟨⟨(segments, left), h, fun other h' => ?_⟩, fun own => ⟨fun hown => ?_, ?_⟩,
    fun fault => ⟨fun hfault => ?_, ?_⟩⟩
  · obtain ⟨hsegments, hleft⟩ := h'.unique h rfl
    exact Prod.ext hsegments hleft
  · rw [h.split_eq] at hown
    cases left with
    | some body => cases hown
    | none =>
      by_cases hempty : [] ∈ partValues segments
      · simp [hempty] at hown
      · exact ⟨segments, h, hempty, by simpa [hempty] using hown⟩
  · rintro ⟨segments, h, hempty, rfl⟩
    rw [h.split_eq, Option.elim_none, if_neg hempty]
  · rw [h.split_eq] at hfault
    cases left with
    | some body => exact .inl ⟨(Except.error.inj hfault).symm, segments, body, h⟩
    | none =>
      by_cases hempty : [] ∈ partValues segments
      · exact .inr ⟨by simpa [hempty, eq_comm] using hfault, segments, h, hempty⟩
      · simp [hempty] at hfault
  · rintro (⟨rfl, segments, body, h⟩ | ⟨rfl, segments, h, hempty⟩)
    · exact h.split_eq
    · rw [h.split_eq, Option.elim_none, if_pos hempty]

end CatalogPlan.Name
