import CatalogPlan.Routine.Names

/-!
# Dependencies of routines on what their bodies name

A routine written in SQL also depends on the captured objects that its body
refers to. Other objects are left as they are.
-/

namespace CatalogPlan.Routine

/-- The body of a routine that is to be searched: one in SQL that the database
has not parsed already. -/
def searchedBody? (o : Object) : Option Value :=
  let source := o.payload.get "source"
  let inSql := match o.payload.get "language" with
    | .text language => language == "sql"
    | _ => false
  let parsed := (o.payload.get "is_pre_parsed").isTruthy
  if o.kind == .routine && inSql && !parsed && source.isTruthy then some source else none

def bodySchemas (i : Identity) : Except Fault (List String) :=
  match Name.split (baseName i) with
  | .ok (schema :: _ :: _) => .ok [Name.quote schema, "public"]
  | .ok _ => .ok ["public"]
  | .error fault => .error (.badName fault)

def addBodyReferences (o : Object) (found : List Identity) : Traced Object := do
  let extra := found.map fun i => ⟨i, some .referential⟩
  let new := extra.filter fun d => !o.dependencies.any (·.same d)
  if !new.isEmpty then Traced.emit (.bodyReferencesAdded new.length o.identity)
  return .make o.identity o.payload (o.dependencies ++ extra) o.oid

def augment [Sql.Parser] (known : Known) (o : Object) : Traced Object :=
  match searchedBody? o with
  | none => pure o
  | some body => do
    let schemas ← bodySchemas o.identity
    match body with
    | .text sql => addBodyReferences o (← bodyReferences known schemas sql)
    | v => Traced.fail (.wrongShape .sqlText v)

def augmentAll [Sql.Parser] (batches : Batches) : Traced Batches :=
  let known := Known.ofBatches batches
  batches.mapM fun (label, objects) => do return (label, ← objects.mapM (augment known))

end CatalogPlan.Routine
