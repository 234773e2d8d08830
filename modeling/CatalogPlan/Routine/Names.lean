import CatalogPlan.Event
import CatalogPlan.Name.Canonical
import CatalogPlan.Sql.References

/-!
# Names in routine bodies

A body names relations and routines as it likes. A written name is made
canonical, in its own schema or in one schema after another, and looked up among
the captured objects.
-/

namespace CatalogPlan.Routine

/-- The captured identities under the names that they are looked up by. -/
abbrev NameTable := List (String × List Identity)

namespace NameTable

def insert (table : NameTable) (name : String) (i : Identity) : NameTable :=
  match table with
  | [] => [(name, [i])]
  | (known, found) :: rest =>
    if known = name then (known, found ++ [i]) :: rest else (known, found) :: insert rest name i

def firstOf (table : NameTable) (names : List String) : List Identity :=
  (names.findSome? fun name => List.lookup name table).getD []

end NameTable

structure Known where
  relations : NameTable
  routines : NameTable
deriving Inhabited

def baseName (i : Identity) : String :=
  String.ofList (i.key.text.toList.takeWhile (· != '('))

def isRelation : Kind → Bool
  | .table | .view | .sequence => true
  | _ => false

namespace Known

def empty : Known := ⟨[], []⟩

def addRelation (known : Known) (i : Identity) : Known :=
  { known with relations := known.relations.insert i.key.text i }

def addRoutine (known : Known) (i : Identity) : Known :=
  { known with routines := known.routines.insert (baseName i) i }

def add (known : Known) (o : Object) : Known :=
  if isRelation o.kind then known.addRelation o.identity
  else if o.kind = .routine then known.addRoutine o.identity
  else known

def ofBatches (batches : Batches) : Known :=
  (batches.flatMap (·.2)).foldl add empty

end Known

def searchPath (schemas : List String) : Option String → List String
  | some schema => if schema = "" then schemas else [schema]
  | none => schemas

def candidates (path : List String) (name : String) : Except NameFault (List String) :=
  path.mapM fun schema => Name.normalize [schema, name]

/-- A call without a name is passed over when its schema cannot be read. -/
def namelessCall (path : List String) : Except Fault Bool :=
  match path with
  | [] => .ok true
  | schema :: _ =>
    match Name.read [schema] with
    | .ok (_, none) => .error .namelessCall
    | _ => .ok false

/-- The captured objects that a written name stands for. A name that cannot be
read stands for none. -/
def lookUp (table : NameTable) (schemas : List String) (w : Sql.WrittenName) :
    Traced (List Identity) := do
  let path := searchPath schemas w.schema
  match w.name with
  | some name =>
    match candidates path name with
    | .ok names => return table.firstOf names
    | .error _ =>
      Traced.emit (.unreadableName w.schema w.name)
      return []
  | none =>
    let readable ← namelessCall path
    if !readable then Traced.emit (.unreadableName w.schema w.name)
    return []

def lookUpKey (w : Sql.WrittenName) : String × String :=
  (w.schema.getD "", w.name.getD "")

def inLookUpOrder (ws : List Sql.WrittenName) : List Sql.WrittenName :=
  sortOn (lexLe textLt textLe) lookUpKey (sortBy Sql.WrittenName.le ws)

/-- Whether a call without a name would have to be put in order with a named one
of the same schema. -/
def isUnsortable (ws : List Sql.WrittenName) : Bool :=
  ws.any fun w => w.name.isNone &&
    ws.any fun v => v.name.isSome && v.schema.getD "" == w.schema.getD ""

/-- The captured objects that SQL text refers to, each once. Unknown names are
passed over. -/
def bodyReferences [Sql.Parser] (known : Known) (schemas : List String) (sql : String) :
    Traced (List Identity) := do
  let found ← Sql.references sql
  let relations ← (inLookUpOrder found.relations).mapM fun w => do
    let objects ← lookUp known.relations schemas w
    if objects.isEmpty then Traced.emit (.unknownRelation w.schema (w.name.getD ""))
    return objects
  if isUnsortable found.functions then Traced.fail .unsortableCalls
  let routines ← (inLookUpOrder found.functions).mapM (lookUp known.routines schemas)
  return distinctIdentities (relations.flatten ++ routines.flatten)

end CatalogPlan.Routine
