import CatalogPlan.Proofs.Name.Reported

/-!
# Qualified names

Names that are read one after the other are read alike when dots join them to
one: no quote is open at a joint, and the blanks beside it do not matter. So a
dotted name stands for the schema and the name in it.
-/

namespace CatalogPlan

namespace Name

variable {name next a b : String} {names own later : List String} {arguments : Option String}
  {as bs : List Char}

/-- A name has the parts and, at its end, the arguments. -/
def Stands (name : String) (own : List String) (arguments : Option String) : Prop :=
  ∃ base, Signed name.toList base arguments ∧ Dotted base own

theorem read_singleton : read [name] = .ok (own, arguments) ↔ Stands name own arguments := by
  rw [Stands, ← strip_ok]
  simp [read, bind_ok]

theorem read_cons_cons : read (name :: next :: names) = .ok (own, arguments) ↔
    ∃ first later, Stands name first none ∧ read (next :: names) = .ok (later, arguments) ∧
      first ++ later = own := by
  have hrest : (next :: names).isEmpty = false := rfl
  rw [read]
  simp only [Stands, ← strip_ok, bind_ok, hrest, Bool.not_false, Bool.and_true, Prod.exists]
  constructor
  · rintro ⟨base, given, hbase, first, hfirst, h⟩
    cases given with
    | some given => cases h
    | none =>
      obtain ⟨⟨later, last⟩, hlater, h⟩ := bind_ok.mp h
      obtain ⟨rfl, rfl⟩ := Prod.mk.inj (pure_ok.mp h)
      exact ⟨first, later, ⟨base, hbase, hfirst⟩, hlater, rfl⟩
  · rintro ⟨first, later, ⟨base, hbase, hfirst⟩, hlater, rfl⟩
    exact ⟨base, none, hbase, first, hfirst, bind_ok.mpr ⟨_, hlater, rfl⟩⟩

theorem Dotted.ne_empty (h : Dotted as own) : own ≠ [] ∧ ∀ p ∈ own, p ≠ "" := by
  obtain ⟨part, later, -, hne, rfl⟩ := h
  refine ⟨by simp, fun p hp => ?_⟩
  obtain ⟨cs, hcs, rfl⟩ := List.mem_map.mp hp
  simpa [← String.toList_inj] using hne cs hcs

theorem read_ne_empty (hne : names ≠ []) (h : read names = .ok (own, arguments)) :
    own ≠ [] ∧ ∀ p ∈ own, p ≠ "" := by
  induction names generalizing own with
  | nil => exact absurd rfl hne
  | cons name names ih =>
    cases names with
    | nil =>
      obtain ⟨base, -, hown⟩ := read_singleton.mp h
      exact hown.ne_empty
    | cons next names =>
      obtain ⟨first, later, ⟨base, -, hfirst⟩, hlater, rfl⟩ := read_cons_cons.mp h
      refine ⟨by simp [hfirst.ne_empty.1], ?_⟩
      exact List.forall_mem_append.mpr ⟨hfirst.ne_empty.2, (ih (by simp) hlater).2⟩

/-- No quote is open at a dot after a dotted name, so the argument list is looked
for as if the text began there. -/
theorem cut_dot (ha : Dotted as own) (hcut : cut false as = none) (bs : List Char) :
    cut false (as ++ '.' :: bs) =
      (cut false bs).map fun found => (as ++ '.' :: found.1, found.2) := by
  have hdot : ('.' == Text.doubleQuote) = false := rfl
  simp [cut_append_of_none hcut, ha.closed, cut, hdot, Function.comp_def]

theorem Dotted.dot (ha : Dotted as own) (hb : Dotted bs later) :
    Dotted (as ++ '.' :: bs) (own ++ later) := by
  obtain ⟨part, rest, hparts, hne, rfl⟩ := ha
  obtain ⟨first, more, hparts', hne', rfl⟩ := hb
  refine ⟨part, rest ++ first :: more, by rw [parts_dot hparts, hparts']; rfl, ?_, by simp⟩
  intro p hp
  rcases List.mem_append.mp (show p ∈ (part :: rest) ++ first :: more from hp) with hp | hp
  · exact hne p hp
  · exact hne' p hp

theorem Stands.dot (ha : Stands a own none) (hb : Stands b later arguments) :
    Stands (a ++ "." ++ b) (own ++ later) arguments := by
  obtain ⟨_, ⟨hcut, rfl⟩, hown⟩ := ha
  obtain ⟨base, hsigned, hlater⟩ := hb
  have htext : (a ++ "." ++ b).toList = a.toList ++ '.' :: b.toList := by simp
  have hjoint := cut_dot hown hcut b.toList
  refine ⟨a.toList ++ '.' :: base, ?_, hown.dot hlater⟩
  cases arguments with
  | none =>
    obtain ⟨hnone, rfl⟩ := hsigned
    exact ⟨by rw [htext, hjoint, hnone]; rfl, htext.symm⟩
  | some arguments =>
    obtain ⟨after, hsome, hend⟩ := hsigned
    exact ⟨after, by rw [htext, hjoint, hsome]; rfl, hend⟩

theorem read_intercalate (h : read (name :: names) = .ok (own, arguments)) :
    read [".".intercalate (name :: names)] = .ok (own, arguments) := by
  induction names generalizing name own with
  | nil => simpa using h
  | cons next names ih =>
    obtain ⟨first, later, hname, hlater, rfl⟩ := read_cons_cons.mp h
    rw [String.intercalate_cons_cons, read_singleton]
    exact hname.dot (read_singleton.mp (ih hlater))

theorem stands_strip : Stands (Text.strip name) own arguments ↔ Stands name own arguments := by
  simp only [Stands, ← strip_ok, Text.strip_strip]

theorem normalize_intercalate (hne : names ≠ []) (h : normalize names = .ok key) :
    normalize [".".intercalate names] = .ok key := by
  obtain ⟨name, names, rfl⟩ := List.exists_cons_of_ne_nil hne
  obtain ⟨own, arguments, hread, hkey⟩ := normalize_ok.mp h
  exact normalize_ok.mpr ⟨own, arguments, read_intercalate hread, hkey⟩

theorem normalize_strip_dot (h : normalize [Text.strip a, Text.strip b] = .ok key) :
    normalize [Text.strip (a ++ "." ++ b)] = .ok key := by
  obtain ⟨own, arguments, hread, hkey⟩ := normalize_ok.mp h
  obtain ⟨first, later, ha, hb, rfl⟩ := read_cons_cons.mp hread
  have hdot := (stands_strip.mp ha).dot (stands_strip.mp (read_singleton.mp hb))
  exact normalize_ok.mpr ⟨_, _, read_singleton.mpr (stands_strip.mpr hdot), hkey⟩

theorem strip_dot_ne_empty (a b : String) : Text.strip (a ++ "." ++ b) ≠ "" := by
  have hdot : '.' ∈ (a ++ "." ++ b).toList := by simp
  simpa [Text.strip] using Text.trim_ne_nil hdot Text.isBlank_dot

end Name

-- ---------------------------------------------------------------------------
-- Identities
-- ---------------------------------------------------------------------------

variable {s l : String} {i : Identity}

theorem RawIdentity.kind_ok {raw : RawIdentity} {k : Kind} : raw.kind = .ok k ↔
    raw.catalogKind = .known k ∨ ∃ v, raw.catalogKind = .reported v ∧ Kind.ofValue? v = some k := by
  unfold RawIdentity.kind
  cases raw.catalogKind with
  | known kind => simp
  | reported v => cases hv : Kind.ofValue? v <;> simp [hv]

theorem ofName_dot (hs : Text.strip s ≠ "") (hl : Text.strip l ≠ "")
    (h : RawIdentity.normalize ⟨source, oid, .text s, .text l⟩ = .ok i) :
    Identity.ofName source (.text (s ++ "." ++ l)) = .ok i := by
  simp only [RawIdentity.normalize, readName, bind_ok, Except.ok.injEq] at h
  obtain ⟨kind, hkind, _, rfl, _, rfl, h⟩ := h
  have hsource := RawIdentity.kind_ok.mp hkind
  rw [if_pos hl, if_neg hs] at h
  obtain ⟨key, hkey, rfl⟩ := RawIdentity.named_ok.mp h
  simp only [Identity.ofName, RawIdentity.normalize, readName, bind_ok, Except.ok.injEq]
  refine ⟨kind, RawIdentity.kind_ok.mpr hsource, _, rfl, _, rfl, ?_⟩
  rw [if_pos (Name.strip_dot_ne_empty s l), if_pos (by decide)]
  exact RawIdentity.named_ok.mpr ⟨key, Name.normalize_strip_dot hkey, rfl⟩

/-- Names that are accepted are accepted joined by dots, with the same key, and
a dotted name stands for the schema and the name that it joins. -/
theorem names_compose :
    (∀ names key, names ≠ [] → Name.normalize names = .ok key →
      Name.normalize [".".intercalate names] = .ok key) ∧
    ∀ source oid s l i, Text.strip s ≠ "" → Text.strip l ≠ "" →
      RawIdentity.normalize ⟨source, oid, .text s, .text l⟩ = .ok i →
      Identity.ofName source (.text (s ++ "." ++ l)) = .ok i :=
  ⟨fun _ _ hne h => Name.normalize_intercalate hne h, fun _ _ _ _ _ hs hl h => ofName_dot hs hl h⟩

theorem names_compose_signature :
    Name.normalize [" App ", "\"My.F\" (a.B , \"x\")"] = .ok "app.\"My.F\"(a.b, \"x\")" ∧
    Name.normalize [".".intercalate [" App ", "\"My.F\" (a.B , \"x\")"]] =
      .ok "app.\"My.F\"(a.b, \"x\")" ∧
    Identity.ofName (.known .routine) (.text (" App " ++ "." ++ " f( )")) =
      .ok ⟨.routine, .name "app.f()"⟩ := by
  have hkey : Name.normalize [" App ", "\"My.F\" (a.B , \"x\")"] =
      .ok "app.\"My.F\"(a.b, \"x\")" := by decide
  have hraw : RawIdentity.normalize ⟨.known .routine, .null, .text " App ", .text " f( )"⟩ =
      .ok ⟨.routine, .name "app.f()"⟩ := by rfl
  exact ⟨hkey, names_compose.1 _ _ (by simp) hkey,
    names_compose.2 _ _ _ _ _ (by decide) (by decide) hraw⟩

end CatalogPlan
