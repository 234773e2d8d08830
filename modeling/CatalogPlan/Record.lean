import CatalogPlan.Identity.Normalize
import CatalogPlan.Value.Json

/-!
# Captured objects

A record of a reader becomes an object: its identity, its payload, and what it
refers to. Two references to the same object with the same class are one, and
an object never refers to itself.
-/

namespace CatalogPlan

/-- A reference to another object; without a class when the reader gave none. -/
structure Dependency where
  target : Identity
  edgeClass : Option EdgeClass
deriving DecidableEq, Inhabited

namespace Dependency

def same (a b : Dependency) : Bool :=
  a.target.same b.target && a.edgeClass == b.edgeClass

def sortKey (d : Dependency) : (String × String) × String :=
  (d.target.sortKey, (d.edgeClass.map (·.name)).getD "")

def ofValue (v : Value) : Except Fault Dependency := do
  let target ← (← RawIdentity.ofValue v).normalize
  let edgeClass := match v with
    | .object fields => Fields.get fields "edge_class"
    | _ => .null
  match edgeClass with
  | .null => return ⟨target, none⟩
  | given =>
    match EdgeClass.ofValue? given with
    | some c => return ⟨target, some c⟩
    | none => throw (.malformed (.value v) (.unknownEdgeClass given))

end Dependency

/-- A set of references: the first of equal ones stands for all. -/
def addDependency (ds : List Dependency) (d : Dependency) : List Dependency :=
  if ds.any (·.same d) then ds else ds ++ [d]

def mergeDependencies (ds more : List Dependency) : List Dependency :=
  more.foldl addDependency ds

def sortDependencies (ds : List Dependency) : List Dependency :=
  sortOn (lexLe (fun a b => sortKeyLe a b && a != b) textLe) Dependency.sortKey ds

structure Object where
  identity : Identity
  payload : Fields
  dependencies : List Dependency
  oid : Option Int
deriving Inhabited

namespace Object

def kind (o : Object) : Kind :=
  o.identity.kind

def make (identity : Identity) (payload : Fields) (dependencies : List Dependency)
    (oid : Option Int) : Object :=
  ⟨identity, payload,
    (mergeDependencies [] dependencies).filter (fun d => !d.target.same identity), oid⟩

def fieldName? : Value → Option String
  | .text s => some s
  | .list _ | .object _ => none
  | scalar => some (Json.render scalar)

/-- The members of a value that can be gone through one by one: the items of a
list, the characters of a text, the names of an object. -/
def members? : Value → Option (List Value)
  | .list items => some items
  | .text s => some (s.toList.map fun c => .text (String.singleton c))
  | .object fields => some (fields.map fun (name, _) => .text name)
  | _ => none

def readPairs (index : Nat) (fields : Fields) : List Value → Except Fault Fields
  | [] => .ok fields
  | pair :: rest =>
    match members? pair with
    | some [name, v] =>
      match fieldName? name with
      | some name => readPairs (index + 1) (fields.insert name v) rest
      | none => .error (.wrongShape .pairs name)
    | some items => .error (.notPair index items.length)
    | none => .error (.wrongShape .pairs pair)

def readFields : Value → Except Fault Fields
  | .object fields => .ok fields
  | v =>
    match members? v with
    | some items => readPairs 0 [] items
    | none => .error (.wrongShape .sequence v)

def readPayload (v : Value) : Except Fault Fields :=
  if v.isTruthy then readFields v else .ok []

def readMembers (v : Value) : Except Fault (List Value) :=
  match members? v with
  | some items => .ok items
  | none => .error (.wrongShape .sequence v)

def readDependencies (v : Value) : Except Fault (List Dependency) :=
  if v.isTruthy then do (← readMembers v).mapM Dependency.ofValue else .ok []

/-- The identity of a record: the kind that the record gives stands for the
kind of the identity, which must be of the same catalog. -/
def readIdentity (raw : RawIdentity) (recordKind : Value) : Except Fault Identity := do
  let identity ← raw.normalize
  match recordKind with
  | .null => return identity
  | v =>
    match Kind.ofValue? v with
    | none => throw (.malformed (.raw raw) (.unknownRecordKind v))
    | some kind =>
      if kind.catalog = identity.kind.catalog then return ⟨kind, identity.key⟩
      else throw (.malformed (.raw raw) (.kindMismatch kind identity.kind))

def ofRecord : Value → Except Fault Object
  | .object fields => do
    let raw ← RawIdentity.ofValue ((Fields.get fields "identity").orElse (.object []))
    let identity ← readIdentity raw (Fields.get fields "kind")
    let oid ← match raw.oid with
      | .null => pure none
      | _ => some <$> raw.readOid
    let dependencies ← readDependencies (Fields.get fields "dependencies")
    let payload ← readPayload (Fields.get fields "payload")
    return make identity payload dependencies oid
  | v => .error (.wrongShape .mapping v)

end Object

abbrev Batches := List (String × List Object)

/-- Adds objects under a label: a known label is extended in its place. -/
def addBatch (batches : Batches) (label : String) (objects : List Object) : Batches :=
  match batches with
  | [] => [(label, objects)]
  | (known, before) :: rest =>
    if known = label then (known, before ++ objects) :: rest
    else (known, before) :: addBatch rest label objects

end CatalogPlan
