import CatalogPlan.Proofs.Routine
import CatalogPlan.Proofs.Sql.Quoted

/-!
# Quoted names in routine bodies

A body names a relation by a schema and a name in quotes. The parts are looked up as
if they had been written without the quotes around them, so the relation is found
where each of their characters stands for itself.
-/

namespace CatalogPlan.Routine

open Name (doubled join normalize Verbatim)
open Sql (StripsQuotes selectFrom)

def relationsUnder (known : Known) (key : String) : List Identity :=
  distinctIdentities ((List.lookup key known.relations).getD [])

theorem candidates_singleton (schema name : String) :
    candidates [schema] name = (normalize [schema, name]).map ([·]) := by
  rw [candidates, List.mapM_cons, List.mapM_nil]
  cases normalize [schema, name] <;> rfl

theorem lookedUp_qualified (table : NameTable) (schemas : List String) {schema : String}
    (hschema : schema ≠ "") (name : String) : lookedUp table schemas ⟨some schema, some name⟩ =
      (normalize [schema, name]).toOption.elim [] fun key => (List.lookup key table).getD [] := by
  have hpath : searchPath schemas (some schema) = [schema] := if_neg hschema
  simp only [lookedUp, hpath, candidates_singleton]
  cases normalize [schema, name] with
  | error fault => rfl
  | ok key => simp [Except.map, Except.toOption, NameTable.firstOf]

theorem bodyReferences_selectFrom [Sql.Parser] (known : Known) (schemas : List String)
    {schema name : String} (h : StripsQuotes schema name) (hschema : schema ≠ "")
    (hname : name ≠ "") : (bodyReferences known schemas (selectFrom schema name)).result =
      .ok ((normalize [doubled schema, doubled name]).toOption.elim [] (relationsUnder known)) := by
  refine bodyReferences_ok.mpr ⟨_, Sql.references_selectFrom h hname, ⟨?_, rfl, ?_⟩, ?_⟩
  · intro w hw
    obtain rfl := List.mem_singleton.mp hw
    rfl
  · exact fun w hw => nomatch hw
  · show distinctIdentities ((lookedUp known.relations schemas _ ++ []) ++ []) = _
    rw [List.append_nil, List.append_nil,
      lookedUp_qualified _ _ (Sql.doubled_ne_empty hschema)]
    cases normalize [doubled schema, doubled name] <;> rfl

/-- Names in quotes are looked up without them: a body that selects from a relation by
two quoted parts refers to what is known under the canonical form of what is left of
them, and this is the relation of the two parts, whatever is known, exactly when each
of their characters stands for itself without quotes. -/
theorem quoted_relation_found [Sql.Parser] {schema name : String} (h : StripsQuotes schema name)
    (hschema : schema ≠ "") (hname : name ≠ "") :
    (∀ known schemas, (bodyReferences known schemas (selectFrom schema name)).result =
      .ok ((normalize [doubled schema, doubled name]).toOption.elim [] (relationsUnder known))) ∧
    ((∀ known schemas, (bodyReferences known schemas (selectFrom schema name)).result =
      .ok (relationsUnder known (join [schema, name]))) ↔
        ∀ c ∈ schema.toList ++ name.toList, Verbatim c) := by
  have hfound := fun known schemas => bodyReferences_selectFrom known schemas h hschema hname
  refine ⟨hfound, ?_⟩
  rw [← Name.normalize_doubled hschema hname]
  constructor
  · intro hall
    -- A table of one relation under the key tells which key is looked up.
    let i : Identity := ⟨.table, .name (join [schema, name])⟩
    let known : Known := ⟨[(join [schema, name], [i])], []⟩
    have hunder : ∀ key, relationsUnder known key = if key = join [schema, name] then [i] else [] := by
      intro key
      by_cases hkey : key = join [schema, name]
      · simp [relationsUnder, known, hkey, distinctIdentities]
      · simp [relationsUnder, known, hkey, distinctIdentities, List.lookup_cons, beq_false_of_ne hkey]
    have hone := Except.ok.inj ((hfound known []).symm.trans (hall known []))
    cases hkey : normalize [doubled schema, doubled name] with
    | error fault => simp [hkey, hunder, Except.toOption] at hone
    | ok key =>
      simp only [hkey, Except.toOption, Option.elim_some, hunder, if_true] at hone
      by_cases heq : key = join [schema, name]
      · rw [heq]
      · simp [heq] at hone
  · intro hkey known schemas
    rw [hfound, hkey]
    rfl

theorem quoted_relation_found_street : StripsQuotes "app" "straße" ∧
    (bodyReferences ⟨[("app.\"straße\"", [⟨.table, .name "app.\"straße\""⟩])], []⟩ ["public"]
      (selectFrom "app" "straße")).result = .ok [⟨.table, .name "app.\"straße\""⟩] := by
  have hstrips : StripsQuotes "app" "straße" := Sql.stripsQuotes (by decide) (by decide)
  have hall : ("app".toList ++ "straße".toList).all (decide <| Verbatim ·) = true := by decide +kernel
  have hplain : ∀ c ∈ "app".toList ++ "straße".toList, Verbatim c := fun c hc =>
    of_decide_eq_true (List.all_eq_true.mp hall c hc)
  have hfound := (quoted_relation_found hstrips (by decide) (by decide)).2.mpr hplain
  have hkey : join ["app", "straße"] = "app.\"straße\"" := by decide +kernel
  refine ⟨hstrips, ?_⟩
  rw [hfound, hkey]
  rfl

/-- Capitals are folded when the quotes are gone, so another relation is looked for. -/
theorem quoted_relation_folded : ∃ known,
    relationsUnder known (join ["App", "Users"]) = [⟨.table, .name (join ["App", "Users"])⟩] ∧
      selectFrom "App" "Users" = "SELECT * FROM \"App\".\"Users\"" ∧
      (bodyReferences known ["public"] "SELECT * FROM \"App\".\"Users\"").result = .ok [] := by
  let known : Known := ⟨[(join ["App", "Users"], [⟨.table, .name (join ["App", "Users"])⟩])], []⟩
  have hrun : (bodyReferences known ["public"] "SELECT * FROM \"App\".\"Users\"").result.toOption =
      some [] := by decide +kernel
  exact ⟨known, by decide +kernel, by decide +kernel, toOption_eq_some.mp hrun⟩

end CatalogPlan.Routine
