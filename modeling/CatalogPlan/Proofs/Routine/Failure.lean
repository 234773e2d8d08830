import CatalogPlan.Proofs.Routine
import CatalogPlan.Proofs.Sorting
import CatalogPlan.Proofs.Sql.Walk

/-!
# When a body can be searched

Searching a body fails in three ways: at a bare word in a list of relations, at a
call without a name whose schema can be read as a name, and at one that would have
to be put in order with a named call of the same schema. Any other body is searched
whatever was captured and whatever its names stand for.
-/

namespace CatalogPlan.Routine

open Sql (Parser references called announced hasBareMember Meet WrittenName)

variable {w : WrittenName} {e : Bool} {t : Sql.Tree}

-- ---------------------------------------------------------------------------
-- Calls without a name
-- ---------------------------------------------------------------------------

theorem memberRelations_named [Parser] (h : w ∈ Sql.memberRelations t) : w.name.isSome = true := by
  cases t with
  | leaf token => cases h
  | group k children =>
    simp only [Sql.memberRelations, Sql.namedRelation] at h
    repeat' split at h
    all_goals simp [Sql.References.relation, Sql.References.none] at h
    rw [h, Option.isSome_some]

theorem announced_named [Parser] (h : w ∈ announced e t) : w.name.isSome = true := by
  cases t with
  | leaf token => cases h
  | group k children =>
    simp only [announced] at h
    repeat' split at h
    · obtain ⟨m, -, hm⟩ := List.mem_flatMap.mp h
      exact memberRelations_named hm
    · exact memberRelations_named h
    all_goals cases h

def FirstReads (path : List String) : Prop :=
  ∃ schema ∈ path.head?, ∃ parts, Name.read [schema] = .ok (parts, none)

theorem namelessCall_isOk (path : List String) :
    (∃ b, namelessCall path = .ok b) ↔ ¬FirstReads path := by
  cases path with
  | nil => simp [namelessCall, FirstReads]
  | cons schema rest =>
    simp only [namelessCall, FirstReads, List.head?_cons, Option.mem_some_iff, exists_eq_left']
    split
    · rename_i parts hread
      simp [hread]
    · rename_i hread
      simpa using hread

theorem checkWritten_ok {schemas : List String} : checkWritten schemas w = .ok () ↔
    (w.name = none → ¬FirstReads (searchPath schemas w.schema)) := by
  unfold checkWritten
  cases w.name with
  | some name => simp
  | none =>
    simp only [true_imp_iff, ← namelessCall_isOk]
    exact ⟨fun h => let ⟨b, hb, _⟩ := map_ok.mp h; ⟨b, hb⟩, fun ⟨b, hb⟩ => map_ok.mpr ⟨b, hb, rfl⟩⟩

theorem isUnsortable_eq_false {ws : List WrittenName} : isUnsortable ws = false ↔
    ∀ w ∈ ws, w.name = none → ∀ v ∈ ws, v.schema.getD "" = w.schema.getD "" → v.name = none := by
  simp only [isUnsortable, List.any_eq_false, Bool.and_eq_true, Option.isNone_iff_eq_none,
    List.any_eq_true, beq_iff_eq, not_and, not_exists, Option.isSome_iff_ne_none]
  exact forall₃_congr fun w _ _ => forall₂_congr fun v _ => not_imp_not

/-- A call without a name is neither looked up nor put in order with a named one. -/
def PassesNameless (schemas : List String) (calls : WrittenName → Prop) : Prop :=
  ∀ w, calls w → w.name = none → ¬FirstReads (searchPath schemas w.schema) ∧
    ∀ v, calls v → v.schema.getD "" = w.schema.getD "" → v.name = none

theorem searchable_iff {schemas : List String} {found : Sql.References}
    (hnamed : ∀ w ∈ found.relations, w.name.isSome = true) :
    Searchable schemas found ↔ PassesNameless schemas (· ∈ found.functions) := by
  have hmem : ∀ w ws, w ∈ inLookUpOrder ws ↔ w ∈ ws := fun w ws =>
    mem_sortOn.trans (sortBy_perm _ _).mem_iff
  constructor
  · intro h w hw hnone
    exact ⟨checkWritten_ok.mp (h.functions w ((hmem w _).mpr hw)) hnone,
      isUnsortable_eq_false.mp h.sortable w hw hnone⟩
  · intro h
    refine ⟨fun w hw => checkWritten_ok.mpr fun hnone => ?_,
      isUnsortable_eq_false.mpr fun w hw hnone => (h w hw hnone).2,
      fun w hw => checkWritten_ok.mpr fun hnone => (h w ((hmem w _).mp hw) hnone).1⟩
    have hsome := hnamed w ((hmem w _).mp hw)
    simp [hnone] at hsome

-- ---------------------------------------------------------------------------
-- Bodies
-- ---------------------------------------------------------------------------

/-- Reading a text fails exactly at a bare word in a list of relations. Searching it
fails there, at a call without a name whose schema can be read as one, and at a call
without a name beside a named one of the same schema. -/
theorem bodyReferences_isOk_iff [Parser] (known : Known) (schemas : List String) (sql : String) :
    ((∃ found, references sql = .ok found) ↔
      ¬Meet (Parser.parse sql) fun e t => hasBareMember e t = true) ∧
    ((∃ is, (bodyReferences known schemas sql).result = .ok is) ↔
      (¬Meet (Parser.parse sql) fun e t => hasBareMember e t = true) ∧
        PassesNameless schemas fun w => Meet (Parser.parse sql) fun e t => w ∈ called e t) := by
  have hfinds := Sql.references_finds sql
  have hread := hfinds.isOk_iff
  refine ⟨hread, ?_⟩
  have hsearch : ∀ found, references sql = .ok found → (Searchable schemas found ↔
      PassesNameless schemas fun w => Meet (Parser.parse sql) fun e t => w ∈ called e t) := by
    intro found hfound
    have hnamed : ∀ w ∈ found.relations, w.name.isSome = true := by
      intro w hw
      obtain ⟨-, -, e, t, -, hw⟩ := (hfinds.relations_iff found hfound w).mp hw
      exact announced_named hw
    simp only [searchable_iff hnamed, PassesNameless, hfinds.functions_iff found hfound]
  simp only [bodyReferences_ok]
  constructor
  · rintro ⟨is, found, hfound, hs, -⟩
    exact ⟨hread.mp ⟨found, hfound⟩, (hsearch found hfound).mp hs⟩
  · rintro ⟨hbare, hcalls⟩
    obtain ⟨found, hfound⟩ := hread.mpr hbare
    exact ⟨_, found, hfound, (hsearch found hfound).mpr hcalls, rfl⟩

/-- A keyword in a list of relations is a bare word, and the type of a cast is a call
without a name when it has a blank before its width. -/
theorem bodyReferences_fails :
    (¬∃ found, references "SELECT * FROM app.users u, LATERAL (SELECT 1) l" = .ok found) ∧
      ¬∃ is, (bodyReferences .empty ["public"] "SELECT total::numeric (10)").result = .ok is := by
  have hlist : (references "SELECT * FROM app.users u, LATERAL (SELECT 1) l").toOption = none := by
    decide +kernel
  have hcast : (bodyReferences .empty ["public"] "SELECT total::numeric (10)").result.isOk = false := by
    decide +kernel
  constructor
  · rintro ⟨found, hfound⟩
    simp [hfound, Except.toOption] at hlist
  · intro h
    simp [isOk_iff.mpr h] at hcast

end CatalogPlan.Routine
