import CatalogPlan.Classification
import CatalogPlan.Event

/-!
# Building the graph of a snapshot

First every object is collected: the first arrival of an identity stands for
all, later ones only add references. Then every reference, in a fixed order, is
resolved to an object and becomes an edge, or is dropped.
-/

namespace CatalogPlan

structure Collection where
  objects : List Object
  oids : List ((Catalog × Int) × Identity)
  references : List (Identity × List Dependency)
deriving Inhabited

namespace Collection

def empty : Collection := ⟨[], [], []⟩

def addReferences (references : List (Identity × List Dependency)) (i : Identity)
    (more : List Dependency) : List (Identity × List Dependency) :=
  match references with
  | [] => [(i, mergeDependencies [] more)]
  | (known, ds) :: rest =>
    if known.same i then (known, mergeDependencies ds more) :: rest
    else (known, ds) :: addReferences rest i more

def numbering (oid : Int) (i : Identity) : Fields :=
  [("oid", .int oid), ("name", match i.key with | .name s => .text s | .oid n => .int n)]

/-- Registers the number of an object: one number belongs to one object of a
catalog. -/
def addOid (oids : List ((Catalog × Int) × Identity)) (i : Identity) (oid : Int) :
    Except Fault (List ((Catalog × Int) × Identity)) :=
  match oids.lookup (i.kind.catalog, oid) with
  | none => .ok (oids ++ [((i.kind.catalog, oid), i)])
  | some known =>
    if known.same i then .ok oids
    else .error (.conflict i (numbering oid known) (numbering oid i))

/-- Registers an object, which must agree with one captured before. -/
def addNode (objects : List Object) (o : Object) : Except Fault (List Object) :=
  match objects.find? (·.identity.same o.identity) with
  | none => .ok (objects ++ [o])
  | some known =>
    if known.kind = o.kind ∧ (Value.object known.payload).same (.object o.payload) then .ok objects
    else .error (.conflict o.identity known.payload o.payload)

def add (c : Collection) (o : Object) : Except Fault Collection := do
  if o.identity.isNumeric then throw (.malformed (.identity o.identity) .unqualified)
  let objects ← addNode c.objects o
  let oids ← match o.oid with
    | none => pure c.oids
    | some oid => addOid c.oids o.identity oid
  return ⟨objects, oids, addReferences c.references o.identity o.dependencies⟩

def ofObjects (objects : List Object) : Except Fault Collection :=
  objects.foldlM add empty

/-- Every reference with its source: sources by sort key, the references of one
source by theirs. -/
def sortedReferences (c : Collection) : List (Identity × Dependency) :=
  (sortOn sortKeyLe (fun (source, _) => Identity.sortKey source) c.references).flatMap
    fun (source, ds) => (sortDependencies ds).map (source, ·)

end Collection

namespace Graph

def outOfScope : String := "referenced object is not in the captured schemas"

def syntheticSchema (schema : Identity) : Object :=
  ⟨schema, [("synthetic", .bool true)], [], none⟩

inductive Resolution where
  | node (i : Identity)
  | newSchema (schema : Identity)
  | failedCapture (kinds : List Kind)
  | outside
deriving Inhabited

/-- Resolves the target of a reference: a number by catalog, a name among the
nodes, and the name of an unknown schema to that schema. -/
def resolve (oids : List ((Catalog × Int) × Identity)) (failed : List Kind) (g : Graph)
    (target : Identity) : Resolution :=
  let missing :=
    match failed.filter (·.catalog = target.kind.catalog) with
    | [] => Resolution.outside
    | kinds => .failedCapture kinds
  match target.key with
  | .oid n =>
    match (oids.lookup (target.kind.catalog, n)).bind g.find? with
    | some o => .node o.identity
    | none => missing
  | .name _ =>
    match g.find? target with
    | some o => .node o.identity
    | none => if target.kind = .namespace then .newSchema target else missing

/-- Adds an edge; of several classes for one pair the most binding one stays. -/
def addEdge (g : Graph) (e : Edge) : Traced Graph :=
  match g.edges.find? (·.joins e.source e.target) with
  | none => pure { g with edges := g.edges ++ [e] }
  | some known =>
    if e.edgeClass.binding ≤ known.edgeClass.binding then pure g
    else do
      Traced.emit (.classStrengthened known e.edgeClass)
      return { g with edges := g.edges.map fun k => if k.joins e.source e.target then e else k }

def connect (g : Graph) (source target : Identity) (edgeClass : Option EdgeClass) :
    Traced Graph := do
  if target.same source then return g
  let edgeClass ← match edgeClass, g.find? source with
    | some c, _ => pure c
    | none, some o => defaultEdgeClass o target
    | none, none => pure (classifyEdge source.kind target.kind)
  g.addEdge (Edge.orient ⟨source, target, edgeClass⟩)

def addReference (oids : List ((Catalog × Int) × Identity)) (failed : List Kind) (g : Graph)
    (reference : Identity × Dependency) : Traced Graph :=
  let (source, d) := reference
  match g.resolve oids failed d.target with
  | .node target => g.connect source target d.edgeClass
  | .newSchema schema => do
    Traced.emit (.schemaAdded schema source)
    connect { g with objects := g.objects ++ [syntheticSchema schema] } source schema d.edgeClass
  | .failedCapture kinds => Traced.fail (.incomplete kinds (some source) (some d.target))
  | .outside => do
    let diagnostic : Diagnostic := ⟨source, d.target, outOfScope⟩
    Traced.emit (.referenceDropped diagnostic)
    return { g with diagnostics := g.diagnostics ++ [diagnostic] }

def addReferences (oids : List ((Catalog × Int) × Identity)) (failed : List Kind) (g : Graph)
    (references : List (Identity × Dependency)) : Traced Graph :=
  references.foldlM (addReference oids failed) g

def ofCollection (c : Collection) (failed : List Kind) : Traced Graph := do
  let g ← addReferences c.oids failed ⟨c.objects, [], []⟩ c.sortedReferences
  Traced.emit (.graphBuilt g.objects.length g.edges.length g.diagnostics.length)
  return g

def readKinds (values : List Value) : Except Fault (List Kind) :=
  values.mapM fun v =>
    match Kind.ofValue? v with
    | some kind => .ok kind
    | none => .error (.unknownKind v)

/-- The graph of a snapshot. A reference into a catalog whose capture failed is
fatal; others that lead nowhere are dropped. -/
def build (batches : Batches) (failedKinds : List Value) : Traced Graph := do
  let failed ← readKinds failedKinds
  let c ← Collection.ofObjects (batches.flatMap (·.2))
  ofCollection c failed.eraseDups

end Graph

end CatalogPlan
