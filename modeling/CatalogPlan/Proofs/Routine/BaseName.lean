import CatalogPlan.Proofs.Canonical
import CatalogPlan.Proofs.Name.Qualified
import CatalogPlan.Proofs.Routine.Overloads

/-!
# Names without arguments

The name that a routine is looked up by ends at the first parenthesis in its key. That
is where the arguments begin unless a parenthesis is in a quoted part. Then the name
ends inside the quotes, and it cannot be split again.
-/

namespace CatalogPlan

namespace Name

open Text (doubleQuote isBlank)

variable {a b cs : List Char} {parts : List String} {arguments : Option String}

-- ---------------------------------------------------------------------------
-- Parentheses in parts
-- ---------------------------------------------------------------------------

def Unopened (parts : List String) : Prop :=
  ∀ p ∈ parts, '(' ∉ p.toList

instance : DecidablePred Unopened :=
  fun _ => inferInstanceAs (Decidable (∀ _ ∈ _, _))

theorem mem_doubleQuotes (cs : List Char) (hc : c ≠ doubleQuote) : c ∈ doubleQuotes cs ↔ c ∈ cs := by
  simp only [doubleQuotes, List.mem_flatMap]
  constructor
  · rintro ⟨d, hd, hmem⟩
    split at hmem
    · simp_all
    · rwa [List.mem_singleton.mp hmem]
  · exact fun h => ⟨c, h, by simp [hc]⟩

theorem mem_quote (part : String) : '(' ∈ (quote part).toList ↔ '(' ∈ part.toList := by
  have hne : '(' ≠ doubleQuote := by decide
  unfold quote
  split
  · rfl
  · simp [hne, mem_doubleQuotes]

theorem not_mem_join : '(' ∉ (join parts).toList ↔ Unopened parts := by
  cases parts with
  | nil => simp [join, Unopened]
  | cons part later => simp [join_cons, dotted, mem_quote, Unopened]

theorem openAfter_of_cut (h : cut false (a ++ '(' :: b) = none) : openAfter false a = true := by
  cases ha : cut false a with
  | some found =>
    rw [cut_append_of_some ha] at h
    cases h
  | none =>
    rw [cut_append_of_none ha] at h
    by_contra hclosed
    simp [cut, hclosed] at h

-- ---------------------------------------------------------------------------
-- The first parenthesis
-- ---------------------------------------------------------------------------

def untilOpening (cs : List Char) : List Char :=
  cs.takeWhile (· != '(')

theorem untilOpening_append (h : '(' ∉ a) (hb : ∀ c ∈ b.head?, c = '(') : untilOpening (a ++ b) = a :=
  takeWhile_exact (fun c hc => bne_iff_ne.mpr fun heq => h (heq ▸ hc))
    fun c hc => by simp [hb c hc]

/-- Of a written name the joined parts come before the first parenthesis, if there is
none in them. -/
theorem untilOpening_write (h : Unopened parts) :
    untilOpening (write parts arguments).toList = (join parts).toList := by
  rw [write_toList]
  exact untilOpening_append (not_mem_join.mpr h) (listed_head _)

/-- If there is a parenthesis in the parts, a quote is open before the first one. -/
theorem openAfter_untilOpening (h : ¬Unopened parts) :
    openAfter false (untilOpening (write parts arguments).toList) = true := by
  obtain ⟨a, b, hjoin, ha⟩ := List.eq_append_cons_of_mem (not_not.mp (not_mem_join.not.mpr h))
  rw [write_toList, hjoin, List.append_assoc, untilOpening_append ha (by simp)]
  exact openAfter_of_cut (hjoin ▸ cut_join parts)

theorem split_of_openAfter (h : openAfter false text.toList = true) :
    split text = .error (.unterminatedQuote text) := by
  refine split_open ?_
  cases hparts : Name.parts .outside text.toList with
  | none => rfl
  | some found =>
    have hclosed := openAfter_of_parts hparts
    rw [show decide (Quoting.outside = .inside) = false from rfl, h] at hclosed
    cases hclosed

-- ---------------------------------------------------------------------------
-- Numbers
-- ---------------------------------------------------------------------------

theorem verbatim_of_isDigit (h : c.isDigit = true) : Verbatim c := by
  refine verbatim_of_isPlainChar ?_
  have hbetween : '0' ≤ c ∧ c ≤ '9' := by simpa [Char.isDigit, Char.le_def] using h
  simp [isPlainChar, hbetween]

theorem verbatim_number (n : Int) : ∀ c ∈ (toString n).toList, Verbatim c := by
  have hdigits : ∀ m : Nat, ∀ c ∈ m.repr.toList, Verbatim c := by
    intro m c hc
    rw [Nat.toList_repr] at hc
    exact verbatim_of_isDigit (Nat.isDigit_of_mem_toDigits (by decide) (by decide) hc)
  rw [Int.toString_eq_repr, Int.repr_eq_if]
  split
  · exact hdigits _
  · have hminus : Verbatim '-' := by decide
    rw [String.toList_append]
    exact List.forall_mem_append.mpr ⟨by simpa using hminus, hdigits _⟩

theorem split_number (n : Int) : split (toString n) = .ok [toString n] := by
  obtain ⟨c, rest, hc, -⟩ := toString_head n
  refine split_ok.mpr ⟨_, [], parts_verbatim (verbatim_number n), ?_, by rw [List.map_singleton, String.ofList_toList]⟩
  rw [hc]
  simp

end Name

namespace Routine

open Name (Unopened openAfter)

variable {raw raw' : RawIdentity} {i j : Identity} {parts : List String} {arguments : Option String}

-- ---------------------------------------------------------------------------
-- Routines
-- ---------------------------------------------------------------------------

theorem baseName_toList (i : Identity) : (baseName i).toList = Name.untilOpening i.key.text.toList :=
  String.toList_ofList

theorem baseName_unopened (hkey : i.key = .name (Name.write parts arguments)) (h : Unopened parts) :
    baseName i = Name.join parts := by
  rw [← String.toList_inj, baseName_toList, hkey]
  exact Name.untilOpening_write h

theorem baseName_opened (hkey : i.key = .name (Name.write parts arguments)) (h : ¬Unopened parts) :
    openAfter false (baseName i).toList = true := by
  rw [baseName_toList, hkey]
  exact Name.openAfter_untilOpening h

theorem baseName_number (hkey : i.key = .oid n) : baseName i = toString n := by
  have hnone : '(' ∉ (toString n).toList :=
    fun hmem => (Name.verbatim_number n '(' hmem).parenthesis rfl
  have huntil := @Name.untilOpening_append _ [] hnone (by simp)
  rw [List.append_nil] at huntil
  rw [← String.toList_inj, baseName_toList, hkey]
  exact huntil

theorem ne_join_of_openAfter {text : String} (h : openAfter false text.toList = true)
    (parts : List String) : text ≠ Name.join parts := by
  rintro rfl
  rw [Name.openAfter_join] at h
  cases h

theorem baseName_eq_join_iff (hkey : i.key = .name (Name.write parts arguments)) :
    baseName i = Name.join parts ↔ Unopened parts := by
  refine ⟨fun heq => ?_, baseName_unopened hkey⟩
  by_contra hopened
  exact ne_join_of_openAfter (baseName_opened hkey hopened) parts heq

theorem lookedUp_by_join (hi : i.Canonical) (parts : List String) : baseName i = Name.join parts ↔
    Unopened parts ∧ ∃ arguments, i.key = .name (Name.write parts arguments) := by
  refine ⟨fun heq => ?_, fun ⟨h, arguments, hkey⟩ => baseName_unopened hkey h⟩
  cases hkey : i.key with
  | oid n =>
    have hjoin : Name.write parts none = toString n := heq.symm.trans (baseName_number hkey)
    obtain ⟨c, rest, hc, hnumber⟩ := toString_head n
    rw [Name.write_head parts none (hjoin ▸ hc)] at hnumber
    cases hnumber
  | name s =>
    obtain ⟨names, hs⟩ := hi s hkey
    obtain ⟨own, arguments, -, rfl⟩ := Name.normalize_ok.mp hs
    have hunopened : Unopened own := by
      by_contra hopened
      exact ne_join_of_openAfter (baseName_opened hkey hopened) parts heq
    have hjoin : Name.write own none = Name.write parts none :=
      (baseName_unopened hkey hunopened).symm.trans heq
    obtain ⟨rfl, -⟩ := Name.write_inj.mp hjoin
    exact ⟨hunopened, arguments, rfl⟩

theorem split_baseName (hn : raw.Named parts arguments) (h : raw.normalize = .ok i) :
    Name.split (baseName i) = if Unopened parts then .ok (parts.map Name.readBack)
      else .error (.unterminatedQuote (baseName i)) := by
  have hkey := hn.key h
  split
  · rename_i hunopened
    obtain ⟨names, -, hne, hread⟩ := hn
    obtain ⟨hparts, hempty⟩ := Name.read_ne_empty hne hread
    rw [baseName_unopened hkey hunopened, Name.split_joined hparts hempty]
  · exact Name.split_of_openAfter (baseName_opened hkey ‹_›)

theorem mem_firstOf_name {batches : Batches} {name : String} :
    i ∈ (Known.ofBatches batches).routines.firstOf [name] ↔
      i ∈ routinesOf (arrivals batches) ∧ baseName i = name := by
  rw [ofBatches_eq, NameTable.mem_firstOf]
  refine and_congr_right fun _ => ⟨?_, fun heq => ⟨[], [], by simp [heq], by simp⟩⟩
  rintro ⟨before, after, hone, -⟩
  have hmem : baseName i ∈ [name] := hone ▸ by simp
  exact List.mem_singleton.mp hmem

theorem bodySchemas_isOk : (∃ schemas, bodySchemas i = .ok schemas) ↔
    ∃ own, Name.split (baseName i) = .ok own := by
  unfold bodySchemas
  cases Name.split (baseName i) with
  | error fault => simp
  | ok own =>
    simp only [Except.ok.injEq, exists_eq', iff_true]
    split <;> simp_all

/-- A routine is looked up by its name without arguments, and that name is split to find
its schema, exactly when no part of it has a parenthesis. Of captured routines those
with the same parts are then found together. A number is looked up by itself. -/
theorem baseName_exact (parts : List String) :
    (∀ (raw : RawIdentity) i arguments, raw.normalize = .ok i → raw.Named parts arguments →
      (baseName i = Name.join parts ↔ Unopened parts) ∧
      (Name.split (baseName i) = if Unopened parts then .ok (parts.map Name.readBack)
        else .error (.unterminatedQuote (baseName i))) ∧
      ((∃ schemas, bodySchemas i = .ok schemas) ↔ Unopened parts)) ∧
    (∀ batches, (∀ o ∈ arrivals batches, ∃ record, Object.ofRecord record = .ok o) → ∀ i,
      i ∈ (Known.ofBatches batches).routines.firstOf [Name.join parts] ↔
        i ∈ routinesOf (arrivals batches) ∧ Unopened parts ∧
          ∃ arguments, i.key = .name (Name.write parts arguments)) ∧
    ∀ (raw : RawIdentity) i n, raw.normalize = .ok i → raw.Numbered n →
      baseName i = toString n ∧ Name.split (baseName i) = .ok [toString n] := by
  refine ⟨fun raw i arguments h hn => ?_, fun batches hrecords i => ?_, fun raw i n h hn => ?_⟩
  · have hsplit := split_baseName hn h
    refine ⟨baseName_eq_join_iff (hn.key h), hsplit, ?_⟩
    rw [bodySchemas_isOk, hsplit]
    split <;> simp_all
  · rw [mem_firstOf_name]
    refine and_congr_right fun hi => ?_
    obtain ⟨o, ho, -, rfl⟩ := mem_routinesOf.mp hi
    obtain ⟨record, hrecord⟩ := hrecords o ho
    exact lookedUp_by_join (ofRecord_canonical hrecord).identity parts
  · rw [baseName_number (hn.key h)]
    exact ⟨rfl, Name.split_number n⟩

def functionNamed (name : String) : Value :=
  .object [("identity", .object [("catalog_kind", .text "function"), ("local_name", .text name)])]

def overloads : List Object :=
  [⟨⟨.routine, .name "app.f(int)"⟩, [], [], none⟩, ⟨⟨.routine, .name "app.f()"⟩, [], [], none⟩]

theorem baseName_exact_overloads :
    [functionNamed "App.F( INT )", functionNamed "app.f()"].mapM Object.ofRecord = .ok overloads ∧
    baseName ⟨.routine, .name "app.f(int)"⟩ = "app.f" ∧
    (∃ schemas, bodySchemas ⟨.routine, .name "app.f(int)"⟩ = .ok schemas) ∧
    Name.split (baseName ⟨.routine, .oid (-7)⟩) = .ok ["-7"] ∧
    ∀ i, i ∈ (Known.ofBatches [("function", overloads)]).routines.firstOf ["app.f"] ↔
      i ∈ routinesOf overloads ∧ Unopened ["app", "f"] ∧
        ∃ arguments, i.key = .name (Name.write ["app", "f"] arguments) := by
  let raw : RawIdentity := ⟨.known .routine, .null, .text "", .text "App.F( INT )"⟩
  let numbered : RawIdentity := ⟨.known .routine, .int (-7), .null, .null⟩
  have hraw : raw.normalize = .ok ⟨.routine, .name "app.f(int)"⟩ := by rfl
  have hnamed : raw.Named ["app", "f"] (some " INT ") := ⟨["App.F( INT )"], by rfl, by simp, by rfl⟩
  have hnumbered : numbered.Numbered (-7) := ⟨by rfl, by rfl⟩
  have hrecords : [functionNamed "App.F( INT )", functionNamed "app.f()"].mapM Object.ofRecord =
      .ok overloads := by rfl
  obtain ⟨hnames, hfound, hnumbers⟩ := baseName_exact ["app", "f"]
  obtain ⟨hbase, -, hschemas⟩ := hnames raw _ _ hraw hnamed
  obtain ⟨-, hsplit⟩ := hnumbers numbered ⟨.routine, .oid (-7)⟩ _ (by rfl) hnumbered
  have hcaptured : ∀ o ∈ arrivals [("function", overloads)], ∃ record, Object.ofRecord record = .ok o := by
    intro o ho
    have hmem : o ∈ overloads := by simpa [arrivals] using ho
    obtain ⟨record, -, hrecord⟩ := forall₂_mem_right (mapM_ok.mp hrecords) hmem
    exact ⟨record, hrecord⟩
  exact ⟨hrecords, hbase.mpr (by decide), hschemas.mpr (by decide), hsplit,
    hfound _ hcaptured⟩

/-- A parenthesis in a quoted part cuts the name inside the quotes, and the body of the
routine cannot be searched. -/
theorem baseName_cut_in_quotes : Object.ofRecord (functionNamed "app.\"f(x\"()") =
      .ok ⟨⟨.routine, .name "app.\"f(x\"()"⟩, [], [], none⟩ ∧
    Name.read ["app.\"f(x\"()"] = .ok (["app", "f(x"], some "") ∧
    Name.join ["app", "f(x"] = "app.\"f(x\"" ∧
    baseName ⟨.routine, .name "app.\"f(x\"()"⟩ = "app.\"f" ∧
    bodySchemas ⟨.routine, .name "app.\"f(x\"()"⟩ =
      .error (.badName (.unterminatedQuote "app.\"f")) :=
  ⟨by rfl, by rfl, by decide, by decide, by rfl⟩

end Routine

end CatalogPlan
