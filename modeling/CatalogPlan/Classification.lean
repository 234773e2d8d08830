import CatalogPlan.Record

/-!
# Classes of dependencies

Which class a dependency has when the reader gave none, and which way an
ownership relation points.
-/

namespace CatalogPlan

def routineRefersTo : Kind → Bool
  | .table | .view | .sequence | .index | .routine | .constraint | .trigger | .policy => true
  | .type | .extension | .namespace => false

def classifyEdge (source target : Kind) : EdgeClass :=
  match source, target with
  | .table, .sequence | .sequence, .table => .ownership
  | .table, .table => .referential
  | .routine, target => if routineRefersTo target then .referential else .structural
  | .trigger, .routine | .policy, .routine => .referential
  | _, _ => .structural

def foldTypeName (s : String) : String :=
  Text.lower (String.ofList (s.toList.filter fun c => c != '_' && c != ' '))

/-- Whether a constraint payload is that of a foreign key. The type is a plain
text or an object tagged with one. -/
def isForeignKey (payload : Fields) : Bool :=
  let constraintType := match payload.get "constraint_type" with
    | .object tagged => Fields.get tagged "type"
    | v => v
  match constraintType with
  | .text s => foldTypeName s == "foreignkey" || foldTypeName s == "f"
  | _ => false

/-- The table that carries a constraint: the payload names it, or else the key
of the constraint starts with its name. -/
def ownerTable (o : Object) : Except Fault Identity :=
  match o.payload.get "owner_table_name" with
  | .object owner =>
    RawIdentity.normalize
      ⟨.known .table, .null, Fields.get owner "schema_name", Fields.get owner "local_name"⟩
  | .text s => Identity.ofName (.known .table) (.text s)
  | _ =>
    match Name.split o.identity.key.text with
    | .ok parts => .ok ⟨.table, .name (Name.join parts.dropLast)⟩
    | .error fault => .error (.badName fault)

/-- The class of an unclassified dependency. A foreign key refers to the target
table of the key; the table that carries it stays structural. -/
def defaultEdgeClass (o : Object) (target : Identity) : Except Fault EdgeClass := do
  if o.kind = .constraint ∧ target.kind = .table ∧ isForeignKey o.payload then
    let owner ← ownerTable o
    if !target.same owner then return .referential
  return classifyEdge o.kind target.kind

/-- Points every ownership relation from the owner to its sequence, so that the
sequence is created first. -/
def Edge.orient (e : Edge) : Edge :=
  if e.source.kind = .sequence ∧ e.target.kind = .table ∧ e.edgeClass = .ownership then
    ⟨e.target, e.source, .ownership⟩
  else e

end CatalogPlan
