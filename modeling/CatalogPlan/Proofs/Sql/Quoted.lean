import CatalogPlan.Proofs.Name.Unquoted
import CatalogPlan.Proofs.Sql.Walk

/-!
# A relation in quotes

A text that selects from one relation whose schema and name are both in quotes is
lexed, grouped and walked through for all schemas and names: what is found are the
two parts without the quotes around them, with the quotes inside still doubled. Any
parser will do that takes each name in quotes for one symbol and strips the quotes.
-/

namespace CatalogPlan.Sql

open Text (doubleQuote)
open Name (doubleQuotes doubleQuotes_quote doubleQuotes_cons doubled)

-- ---------------------------------------------------------------------------
-- Quoted symbols
-- ---------------------------------------------------------------------------

/-- No backslash stands right before a quote, also not before the one at the end. -/
def Unescaped (cs : List Char) : Prop :=
  ¬['\\', doubleQuote] <:+: cs ++ [doubleQuote]

instance : DecidablePred Unescaped :=
  fun _ => inferInstanceAs (Decidable ¬_)

variable {c : Char} {cs rest : List Char} {before : Option Char}

theorem Unescaped.of_cons (h : Unescaped (c :: cs)) : Unescaped cs :=
  fun hcs => h (List.infix_cons hcs)

theorem Unescaped.next_ne (h : Unescaped ('\\' :: cs)) : ∃ d ds, cs = d :: ds ∧ d ≠ doubleQuote := by
  cases cs with
  | nil => exact absurd (List.infix_refl _) h
  | cons d ds =>
    refine ⟨d, ds, rfl, ?_⟩
    rintro rfl
    exact h ⟨[], ds ++ [doubleQuote], by simp⟩

namespace Lexer

theorem closing?_doubleQuotes (h : Unescaped cs) (hrest : rest.head? ≠ some doubleQuote) :
    closing? doubleQuote true (doubleQuotes cs ++ doubleQuote :: rest) = some rest := by
  induction cs with
  | nil =>
    cases rest with
    | nil => rfl
    | cons d rest =>
      have hd : d ≠ doubleQuote := by simpa using hrest
      simp [doubleQuotes, closing?, hd]
  | cons c cs ih =>
    have htail := ih h.of_cons
    by_cases hc : c = doubleQuote
    · subst hc
      rw [doubleQuotes_quote, List.cons_append, List.cons_append, closing?, if_pos rfl, if_pos rfl,
        htail]
      rfl
    · rw [doubleQuotes_cons hc, List.cons_append]
      -- A backslash stands before the first character of what is left, which is no quote.
      cases htext : doubleQuotes cs ++ doubleQuote :: rest with
      | nil => simp at htext
      | cons d ds =>
        have hescape : (c == '\\' && d == doubleQuote) = false := by
          by_cases hback : c = '\\'
          · subst hback
            obtain ⟨x, xs, rfl, hx⟩ := h.next_ne
            rw [doubleQuotes_cons hx] at htext
            obtain ⟨rfl, -⟩ := List.cons.inj htext
            simp [hx]
          · simp [hback]
        rw [closing?, if_neg hc, Bool.true_and, hescape, ← htext, htail]
        rfl

theorem next_of_rules (h : applyRules rules before cs = some (kind, rest)) :
    next before cs = (kind, rest) := by
  rw [next, h]
  rfl

theorem earlier_rules_doubleQuote (hbefore : before = some ' ' ∨ before = some '.') :
    applyRules (rules.take 24) before (doubleQuote :: cs) = none := by
  rcases hbefore with rfl | rfl <;> rfl

theorem next_symbol (hbefore : before = some ' ' ∨ before = some '.')
    (h : closing? doubleQuote true cs = some rest) :
    next before (doubleQuote :: cs) = (.symbol, rest) := by
  have hrules : rules = rules.take 24 ++ [(.symbol, quoted doubleQuote true), (.name, bracketed)] := rfl
  have hearlier := @earlier_rules_doubleQuote cs before hbefore
  refine next_of_rules ?_
  rw [applyRules] at hearlier ⊢
  rw [hrules, List.findSome?_append, hearlier]
  simp [quoted, h]

theorem tokensFrom_append (word rest : List Char) (hword : word.getLast? = some c)
    (h : next before (word ++ rest) = (kind, rest)) :
    tokensFrom 0 before (word ++ rest) = ⟨kind, String.ofList word⟩ :: tokensFrom 0 (some c) rest := by
  have hskip : ∀ (word : List Char) (d : Char), (d :: word).getLast? = some c →
      tokensFrom word.length (some d) (word ++ rest) = tokensFrom 0 (some c) rest := by
    intro word
    induction word with
    | nil =>
      intro d hd
      obtain rfl : d = c := by simpa using hd
      rfl
    | cons x word ih =>
      intro d hd
      exact ih x (by simpa using hd)
  cases word with
  | nil => cases hword
  | cons d word =>
    rw [List.cons_append] at h ⊢
    have hmore : (word ++ rest).length - rest.length = word.length := by simp
    rw [tokensFrom, h]
    simp only [hmore]
    rw [List.take_left, hskip word d hword]

end Lexer

-- ---------------------------------------------------------------------------
-- The text
-- ---------------------------------------------------------------------------

def inQuotes (part : String) : String :=
  String.ofList (doubleQuote :: doubleQuotes part.toList ++ [doubleQuote])

def selectFrom (schema name : String) : String :=
  "SELECT * FROM " ++ inQuotes schema ++ "." ++ inQuotes name

def selectTokens (schema name : String) : List Token :=
  [⟨.dml, "SELECT"⟩, ⟨.blank, " "⟩, ⟨.wildcard, "*"⟩, ⟨.blank, " "⟩, ⟨.keyword, "FROM"⟩,
    ⟨.blank, " "⟩, ⟨.symbol, schema⟩, ⟨.punctuation, "."⟩, ⟨.symbol, name⟩]

namespace Lexer

theorem tokens_inQuotes (hbefore : before = some ' ' ∨ before = some '.') {part : String}
    (hpart : Unescaped part.toList) (hrest : rest.head? ≠ some doubleQuote) :
    tokensFrom 0 before ((inQuotes part).toList ++ rest) =
      ⟨.symbol, inQuotes part⟩ :: tokensFrom 0 (some doubleQuote) rest := by
  have hclosed := next_symbol hbefore (closing?_doubleQuotes hpart hrest)
  rw [inQuotes, String.toList_ofList]
  refine tokensFrom_append _ _ List.getLast?_concat ?_
  simpa using hclosed

theorem plainWord?_append {word : List Char} (hword : ∀ d ∈ word, Text.isWord d = true)
    (hc : Text.isWord c = true) : plainWord? (c :: word ++ ' ' :: rest) =
      some (wordKind (Text.capitals (String.ofList (c :: word))), ' ' :: rest) := by
  have hstop : (word ++ ' ' :: rest).dropWhile (fun d => Text.isWord d || d == '$' || d == '#') =
      ' ' :: rest := by
    rw [List.dropWhile_append_of_pos fun d hd => by simp [hword d hd]]
    rfl
  have hlength : (word ++ ' ' :: rest).length + 1 - (' ' :: rest).length = (c :: word).length := by
    simp only [List.length_append, List.length_cons]
    omega
  rw [List.cons_append, plainWord?, if_pos hc]
  simp only [hstop, hlength]
  rw [← List.cons_append, List.take_left]

theorem next_select (rest : List Char) :
    next none (['S', 'E', 'L', 'E', 'C', 'T'] ++ ' ' :: '*' :: rest) = (.dml, ' ' :: '*' :: rest) := by
  have hrules : applyRules rules none (['S', 'E', 'L', 'E', 'C', 'T'] ++ ' ' :: '*' :: rest) = none := by
    rfl
  have hphrases : applyPhrases (['S', 'E', 'L', 'E', 'C', 'T'] ++ ' ' :: '*' :: rest) = none := by rfl
  have hkind : wordKind (Text.capitals (String.ofList ['S', 'E', 'L', 'E', 'C', 'T'])) = .dml := by
    decide +kernel
  have hword : ∀ d ∈ ['E', 'L', 'E', 'C', 'T'], Text.isWord d = true := List.all_eq_true.mp (by decide)
  rw [next, hrules, hphrases, plainWord?_append hword (by decide), hkind]
  rfl

end Lexer

theorem tokens_selectFrom {schema name : String} (hs : Unescaped schema.toList)
    (hn : Unescaped name.toList) :
    tokens (selectFrom schema name) = selectTokens (inQuotes schema) (inQuotes name) := by
  have htext : (selectFrom schema name).toList = ['S', 'E', 'L', 'E', 'C', 'T'] ++ ([' '] ++ (['*'] ++
      ([' '] ++ (['F', 'R', 'O', 'M'] ++ ([' '] ++ ((inQuotes schema).toList ++ (['.'] ++
        ((inQuotes name).toList ++ [])))))))) := by
    have hstart : "SELECT * FROM ".toList = ['S', 'E', 'L', 'E', 'C', 'T'] ++ ([' '] ++ (['*'] ++
        ([' '] ++ (['F', 'R', 'O', 'M'] ++ [' '])))) := by rfl
    have hdot : ".".toList = ['.'] := by rfl
    unfold selectFrom
    rw [String.toList_append, String.toList_append, String.toList_append, hstart, hdot]
    simp only [List.append_assoc, List.append_nil]
  have hblank : ∀ before rest, Lexer.tokensFrom 0 before ([' '] ++ rest) =
      ⟨.blank, " "⟩ :: Lexer.tokensFrom 0 (some ' ') rest := fun before rest =>
    Lexer.tokensFrom_append [' '] rest rfl rfl
  have hselect : ∀ rest,
      Lexer.tokensFrom 0 none (['S', 'E', 'L', 'E', 'C', 'T'] ++ ([' '] ++ (['*'] ++ rest))) =
      ⟨.dml, "SELECT"⟩ :: Lexer.tokensFrom 0 (some 'T') ([' '] ++ (['*'] ++ rest)) := fun rest =>
    Lexer.tokensFrom_append _ _ rfl (Lexer.next_select rest)
  have hstar : ∀ rest, Lexer.tokensFrom 0 (some ' ') (['*'] ++ ([' '] ++ rest)) =
      ⟨.wildcard, "*"⟩ :: Lexer.tokensFrom 0 (some '*') ([' '] ++ rest) := fun rest =>
    Lexer.tokensFrom_append ['*'] _ rfl rfl
  have hfrom : ∀ rest, Lexer.tokensFrom 0 (some ' ') (['F', 'R', 'O', 'M'] ++ ([' '] ++ rest)) =
      ⟨.keyword, "FROM"⟩ :: Lexer.tokensFrom 0 (some 'M') ([' '] ++ rest) := fun rest =>
    Lexer.tokensFrom_append ['F', 'R', 'O', 'M'] _ rfl (Lexer.next_of_rules (by rfl))
  have hdot : Lexer.tokensFrom 0 (some doubleQuote) (['.'] ++ ((inQuotes name).toList ++ [])) =
      ⟨.punctuation, "."⟩ :: Lexer.tokensFrom 0 (some '.') ((inQuotes name).toList ++ []) := by
    refine Lexer.tokensFrom_append ['.'] _ rfl ?_
    rw [inQuotes, String.toList_ofList]
    rfl
  rw [tokens, htext, hselect, hblank, hstar, hblank, hfrom, hblank,
    Lexer.tokens_inQuotes (.inl rfl) hs (by simp [doubleQuote]), hdot,
    Lexer.tokens_inQuotes (.inr rfl) hn (by simp)]
  rfl

-- ---------------------------------------------------------------------------
-- Passes that find nothing
-- ---------------------------------------------------------------------------

namespace Grouping

open Sql.Tree (isPunctuation)

variable {t : Tree} {ts : List Tree}

/-- A scan in which nothing waits for a neighbour. -/
structure Scan.Idle (s : Scan) : Prop where
  waiting : s.waiting = none
  absorbing : s.absorbing = false
  gap : s.held = none → s.gap = []

theorem Scan.start_idle : Scan.start.Idle :=
  ⟨rfl, rfl, fun _ => rfl⟩

namespace Binary

/-- No tree that fits on the left comes before one that could stand in the middle. -/
abbrev Apart (b : Binary) (ts : List Tree) : Prop :=
  ts.Pairwise fun x y => (b.left x && b.middle y) = false

theorem step_hold (b : Binary) {s : Scan} (hs : s.Idle) (hblank : t.isBlank = false)
    (h : ∀ x ∈ s.held, (b.left x.2 && b.middle t) = false) (ahead : Bool) :
    b.step s t ahead = ⟨s.toList, some (t, t), [], none, false⟩ := by
  obtain ⟨settled, held, gap, waiting, absorbing⟩ := s
  obtain ⟨rfl, rfl, -⟩ := hs
  cases held with
  | none => simp [step, hblank, meet, Scan.hold]
  | some held =>
    have hmiddle := h held rfl
    rw [Bool.and_comm] at hmiddle
    simp [step, hblank, meet, hmiddle, Scan.hold]

theorem step_blank (b : Binary) {s : Scan} (hs : s.Idle) (hblank : t.isBlank = true) (ahead : Bool) :
    (b.step s t ahead).Idle ∧ (b.step s t ahead).toList = s.toList ++ [t] ∧
      (b.step s t ahead).held = s.held := by
  obtain ⟨settled, held, gap, waiting, absorbing⟩ := s
  obtain ⟨rfl, rfl, hgap⟩ := hs
  have hstep : ∀ s : Scan, s.absorbing = false → b.step s t ahead = s.addBlank t := fun s hs => by
    simp [step, hblank, hs]
  rw [hstep _ rfl]
  cases held with
  | none =>
    obtain rfl := hgap rfl
    exact ⟨⟨rfl, rfl, fun _ => rfl⟩, by simp [Scan.addBlank, Scan.toList], rfl⟩
  | some held => exact ⟨⟨rfl, rfl, fun h => nomatch h⟩, by simp [Scan.addBlank, Scan.toList], rfl⟩

/-- A scan goes through trees that are apart without a change. -/
theorem scan_of_apart (b : Binary) {s : Scan} (hs : s.Idle) (h : b.Apart ts)
    (hheld : ∀ x ∈ s.held, ∀ t ∈ ts, (b.left x.2 && b.middle t) = false) (rest : List Tree) :
    ∃ s', s'.Idle ∧ s'.toList = s.toList ++ ts ∧ b.scan s (ts ++ rest) = b.scan s' rest := by
  induction ts generalizing s with
  | nil => exact ⟨s, hs, by simp, rfl⟩
  | cons t ts ih =>
    obtain ⟨hnext, hapart⟩ := List.pairwise_cons.mp h
    rw [List.cons_append, scan]
    generalize (ts ++ rest).any (isPunctuation ";") = ahead
    by_cases hblank : t.isBlank = true
    · obtain ⟨hidle, hlist, hsame⟩ := b.step_blank hs hblank ahead
      obtain ⟨s', hs', hlist', hscan⟩ := ih hidle hapart fun x hx u hu =>
        hheld x (hsame ▸ hx) u (List.mem_cons_of_mem _ hu)
      exact ⟨s', hs', by rw [hlist', hlist, List.append_assoc, List.singleton_append], hscan⟩
    · rw [b.step_hold hs (by simpa using hblank) (fun x hx => hheld x hx t List.mem_cons_self)]
      obtain ⟨s', hs', hlist', hscan⟩ := @ih ⟨s.toList, some (t, t), [], none, false⟩
        ⟨rfl, rfl, fun _ => rfl⟩ hapart (by simpa using hnext)
      refine ⟨s', hs', ?_, hscan⟩
      rw [hlist']
      simp [Scan.toList]

theorem apply_of_apart (b : Binary) (h : b.Apart ts) : b.apply ts = ts := by
  obtain ⟨s, hs, hlist, hscan⟩ := b.scan_of_apart Scan.start_idle h (fun _ h => nomatch h) []
  obtain ⟨settled, held, gap, waiting, absorbing⟩ := s
  obtain ⟨rfl, -, -⟩ := hs
  rw [List.append_nil] at hscan
  have hclose : b.close ⟨settled, held, gap, none, absorbing⟩ none =
      ⟨settled, held, gap, none, absorbing⟩ := by cases held <;> rfl
  rw [apply, hscan, scan, hclose, hlist]
  rfl

end Binary

def Settled (ps : List (List Tree → List Tree)) (ts : List Tree) : Prop :=
  ∀ p ∈ ps, p ts = ts

theorem Settled.foldl {ps : List (List Tree → List Tree)} {ts : List Tree} (h : Settled ps ts) :
    ps.foldl (fun ts p => p ts) ts = ts := by
  induction ps with
  | nil => rfl
  | cons p rest ih =>
    rw [List.foldl_cons, h p List.mem_cons_self]
    exact ih fun q hq => h q (List.mem_cons_of_mem _ hq)

end Grouping

-- ---------------------------------------------------------------------------
-- The tree
-- ---------------------------------------------------------------------------

def symbolName (schema name : String) : List Tree :=
  [.leaf ⟨.symbol, schema⟩, .leaf ⟨.punctuation, "."⟩, .leaf ⟨.symbol, name⟩]

def selectTree (schema name : String) : List Tree :=
  [.leaf ⟨.dml, "SELECT"⟩, .leaf ⟨.blank, " "⟩, .leaf ⟨.wildcard, "*"⟩, .leaf ⟨.blank, " "⟩,
    .leaf ⟨.keyword, "FROM"⟩, .leaf ⟨.blank, " "⟩, .group .identifier (symbolName schema name)]

section

open Grouping

variable (schema name : String)

theorem settled_tokens : Settled (passes.take 8) ((selectTokens schema name).map .leaf) := by
  simp only [passes, enclosings, List.map_cons, List.map_nil, List.cons_append, List.nil_append,
    List.take_succ_cons, List.take_zero, Settled, List.forall_mem_cons]
  exact ⟨rfl, rfl, rfl, rfl, rfl, rfl, rfl, rfl, fun _ h => nomatch h⟩

theorem gatherCalls_tokens : throughout (outside .call) (plainly gatherCalls)
    ((selectTokens schema name).map .leaf) = (selectTokens schema name).map .leaf := by
  change gatherCalls _ = _
  unfold gatherCalls
  split <;> rfl

theorem scan_symbolName (settled : List Tree) : (members.scan
    ⟨settled, some (.leaf ⟨.symbol, schema⟩, .leaf ⟨.symbol, schema⟩), [], none, false⟩
    [.leaf ⟨.punctuation, "."⟩, .leaf ⟨.symbol, name⟩]).toList =
      settled ++ [.group .identifier (symbolName schema name)] := by
  have hdot : ∀ ahead, members.step
      ⟨settled, some (.leaf ⟨.symbol, schema⟩, .leaf ⟨.symbol, schema⟩), [], none, false⟩
      (.leaf ⟨.punctuation, "."⟩) ahead =
        ⟨settled, some (.leaf ⟨.symbol, schema⟩, .leaf ⟨.symbol, schema⟩), [],
          some (some (.leaf ⟨.punctuation, "."⟩), []), false⟩ := fun _ => rfl
  have hname : ∀ ahead, members.step
      ⟨settled, some (.leaf ⟨.symbol, schema⟩, .leaf ⟨.symbol, schema⟩), [],
        some (some (.leaf ⟨.punctuation, "."⟩), []), false⟩ (.leaf ⟨.symbol, name⟩) ahead =
        ⟨settled, some (.group .identifier (symbolName schema name), .leaf ⟨.symbol, name⟩), [], none,
          false⟩ := fun _ => rfl
  rw [Binary.scan, hdot, Binary.scan, hname, Binary.scan]
  simp [Binary.close, Scan.release, Scan.toList]

theorem members_tokens : binaryPass members ((selectTokens schema name).map .leaf) =
    selectTree schema name := by
  have hpass : ∀ b : Binary, binaryPass b ((selectTokens schema name).map .leaf) =
      b.apply ((selectTokens schema name).map .leaf) := fun _ => rfl
  have happart : members.Apart ((selectTree schema name).take 6) := of_decide_eq_true (by rfl)
  have htokens : (selectTokens schema name).map Tree.leaf =
      (selectTree schema name).take 6 ++ [.leaf ⟨.symbol, schema⟩, .leaf ⟨.punctuation, "."⟩,
        .leaf ⟨.symbol, name⟩] := rfl
  obtain ⟨s, hs, hlist, hscan⟩ := members.scan_of_apart Scan.start_idle happart
    (fun _ h => nomatch h) [.leaf ⟨.symbol, schema⟩, .leaf ⟨.punctuation, "."⟩, .leaf ⟨.symbol, name⟩]
  have hschema : ∀ ahead, members.step s (.leaf ⟨.symbol, schema⟩) ahead =
      ⟨s.toList, some (.leaf ⟨.symbol, schema⟩, .leaf ⟨.symbol, schema⟩), [], none, false⟩ :=
    members.step_hold hs rfl fun _ _ => Bool.and_false _
  rw [hpass, Binary.apply, htokens, hscan, Binary.scan, hschema, scan_symbolName, hlist]
  rfl

theorem binaryPass_selectTree {b : Binary} (hname : b.Apart (symbolName schema name))
    (htree : b.Apart (selectTree schema name)) :
    binaryPass b (selectTree schema name) = selectTree schema name := by
  have hinner : Tree.regroup (outside b.kind) (inGroup b.apply)
      (.group .identifier (symbolName schema name)) = .group .identifier (symbolName schema name) := by
    have hleaves : Tree.regroupAll (outside b.kind) (inGroup b.apply) (symbolName schema name) =
      symbolName schema name := rfl
    rw [Tree.regroup, hleaves, inGroup]
    simp [isEnclosed, b.apply_of_apart hname]
  have hall : Tree.regroupAll (outside b.kind) (inGroup b.apply) (selectTree schema name) =
      selectTree schema name := by
    simp only [selectTree, Tree.regroupAll]
    rw [hinner]
    rfl
  rw [binaryPass, throughout, hall]
  exact b.apply_of_apart htree

theorem settled_selectTree : Settled (passes.drop 11) (selectTree schema name) := by
  have hname : ∀ b ∈ [typeCasts, zoneCasts, operations, comparisons, aliases, assignments, lists],
      b.Apart (symbolName schema name) := of_decide_eq_true (by rfl)
  have htree : ∀ b ∈ [typeCasts, zoneCasts, operations, comparisons, aliases, assignments, lists],
      b.Apart (selectTree schema name) := of_decide_eq_true (by rfl)
  have hbinary : ∀ b ∈ [typeCasts, zoneCasts, operations, comparisons, aliases, assignments, lists],
      binaryPass b (selectTree schema name) = selectTree schema name := fun b hb =>
    binaryPass_selectTree _ _ (hname b hb) (htree b hb)
  have hindexes : indexes.apply (selectTree schema name) = selectTree schema name :=
    indexes.apply_of_apart (of_decide_eq_true (by rfl))
  have hnames : throughout (outside .identifier) (plainly gatherNames) (selectTree schema name) =
      selectTree schema name := by rfl
  have horderings : gatherOrderings (selectTree schema name) = selectTree schema name := by rfl
  have htyped : throughout (outside .typedLiteral) (inGroup gatherTyped) (selectTree schema name) =
      selectTree schema name := by rfl
  have hunits : throughout (outside .typedLiteral) (inGroup gatherUnits) (selectTree schema name) =
      selectTree schema name := by rfl
  have haliased : throughout anywhere (plainly gatherAliased) (selectTree schema name) =
      selectTree schema name := by rfl
  have hcomments : throughout anywhere (plainly alignComments) (selectTree schema name) =
      selectTree schema name := by rfl
  have hrows : gatherRows (selectTree schema name) = selectTree schema name := by rfl
  simp only [List.forall_mem_cons] at hbinary
  obtain ⟨hcasts, hzones, hoperations, hcomparisons, haliases, hassignments, hlists, -⟩ := hbinary
  simp only [passes, enclosings, List.map_cons, List.map_nil, List.cons_append, List.nil_append,
    List.drop_succ_cons, List.drop_zero, Settled, List.forall_mem_cons]
  exact ⟨hindexes, hnames, horderings, hcasts, hzones, htyped, hunits, hoperations, hcomparisons,
    haliases, haliased, hassignments, hcomments, hlists, hrows, fun _ h => nomatch h⟩

theorem group_selectTokens : group (selectTokens schema name) = selectTree schema name := by
  have hpasses : passes = passes.take 8 ++ (throughout (outside .call) (plainly gatherCalls) ::
    throughout (outside .whereClause) conditionsOf :: binaryPass members :: passes.drop 11) := rfl
  have hconditions : throughout (outside .whereClause) conditionsOf
    ((selectTokens schema name).map .leaf) = (selectTokens schema name).map .leaf := by rfl
  rw [group, hpasses, List.foldl_append, (settled_tokens schema name).foldl, List.foldl_cons,
    List.foldl_cons, List.foldl_cons, gatherCalls_tokens, hconditions, members_tokens,
    (settled_selectTree schema name).foldl]

end

-- ---------------------------------------------------------------------------
-- What is found
-- ---------------------------------------------------------------------------

theorem unquote_inQuotes (part : String) : Tree.unquote (inQuotes part) = doubled part := by
  have hlast : (doubleQuote :: (doubleQuotes part.toList ++ [doubleQuote])).getLast? =
      some doubleQuote := by
    rw [← List.cons_append]
    exact List.getLast?_concat
  rw [Tree.unquote, inQuotes, String.toList_ofList, List.cons_append]
  simp only [hlast]
  simp [doubled]

theorem walk_selectTree [Parser] (schema name : String) :
    walk false (selectTree schema name) = .ok (namedRelation (symbolName schema name)) := by
  have hselect : expectedAfter false (.leaf ⟨.dml, "SELECT"⟩) = false := by decide +kernel
  have hstar : expectedAfter false (.leaf ⟨.wildcard, "*"⟩) = false := by decide +kernel
  have hfrom : expectedAfter false (.leaf ⟨.keyword, "FROM"⟩) = true := by decide +kernel
  have hblank : ∀ e, expectedAfter e (.leaf ⟨.blank, " "⟩) = e := by decide +kernel
  have hname : walkTree true (.group .identifier (symbolName schema name)) =
      .ok (namedRelation (symbolName schema name)) := rfl
  rw [selectTree, walk_leaf, hselect, walk_leaf, hblank, walk_leaf, hstar, walk_leaf, hblank, walk_leaf,
    hfrom, walk_leaf, hblank, walk_cons, hname]
  show Except.ok ((namedRelation _).append .none) = _
  simp [References.append, References.none]

theorem doubled_ne_empty {part : String} (h : part ≠ "") : doubled part ≠ "" := by
  obtain ⟨c, cs, hlist⟩ := List.exists_cons_of_ne_nil (show part.toList ≠ [] by simpa using h)
  have hdoubled : doubleQuotes (c :: cs) ≠ [] := by
    by_cases hc : c = doubleQuote
    · rw [hc, doubleQuotes_quote]
      exact List.cons_ne_nil _ _
    · rw [doubleQuotes_cons hc]
      exact List.cons_ne_nil _ _
  rw [doubled, hlist]
  simpa using hdoubled

/-- Each of two names in quotes is one symbol of the text that selects from the relation of
that schema and name, and the group of the two goes by what stands in the quotes. -/
structure StripsQuotes [Parser] (schema name : String) : Prop where
  parse_eq : Parser.parse (selectFrom schema name) =
    [selectTree (inQuotes schema) (inQuotes name)]
  realName_eq : Parser.realName (symbolName (inQuotes schema) (inQuotes name)) =
    some (doubled name)
  parentName_eq : Parser.parentName (symbolName (inQuotes schema) (inQuotes name)) =
    some (doubled schema)

/-- A backslash before a quote would keep the lexer of this library from ending the name. -/
theorem stripsQuotes {schema name : String} (hs : Unescaped schema.toList)
    (hn : Unescaped name.toList) : StripsQuotes schema name where
  parse_eq := by
    have hstatements : statements (selectTokens (inQuotes schema) (inQuotes name)) =
        [selectTokens (inQuotes schema) (inQuotes name)] := by
      generalize inQuotes schema = a, inQuotes name = b
      rfl
    show (statements (tokens (selectFrom schema name))).map group = _
    rw [tokens_selectFrom hs hn, hstatements, List.map_singleton, group_selectTokens]
  realName_eq := congrArg some (unquote_inQuotes name)
  parentName_eq := congrArg some (unquote_inQuotes schema)

theorem references_selectFrom [Parser] {schema name : String} (h : StripsQuotes schema name)
    (hname : name ≠ "") : references (selectFrom schema name) =
      .ok (.relation ⟨some (doubled schema), some (doubled name)⟩) := by
  have hnamed : namedRelation (symbolName (inQuotes schema) (inQuotes name)) =
      .relation ⟨some (doubled schema), some (doubled name)⟩ := by
    rw [namedRelation, h.realName_eq, h.parentName_eq]
    exact if_neg (doubled_ne_empty hname)
  rw [references_eq, h.parse_eq, walkEach, walk_selectTree, hnamed]
  rfl

end CatalogPlan.Sql
