import CatalogPlan.Record

/-!
# Dependency graphs

The objects of one snapshot, at most one edge from one object to another, and
the references that were dropped. An edge points from the dependent object to
the one it needs.
-/

namespace CatalogPlan

structure Diagnostic where
  source : Identity
  target : Identity
  reason : String
deriving Inhabited

def Diagnostic.text (d : Diagnostic) : String :=
  s!"{d.source.text} -> {d.target.text}: {d.reason}"

structure Graph where
  objects : List Object
  edges : List Edge
  diagnostics : List Diagnostic
deriving Inhabited

/-- What a graph knows about one object, under the identity that was asked for. -/
structure Details where
  identity : Identity
  payload : Fields
  incoming : List Identity
  outgoing : List Identity
deriving Inhabited

namespace Graph

def nodes (g : Graph) : List Identity :=
  g.objects.map (·.identity)

def find? (g : Graph) (i : Identity) : Option Object :=
  g.objects.find? (·.identity.same i)

def contains (g : Graph) (i : Identity) : Bool :=
  (g.find? i).isSome

def size (g : Graph) : Nat :=
  g.objects.length

def sortedEdges (g : Graph) : List Edge :=
  sortEdges g.edges

def edgesFrom? (g : Graph) (i : Identity) : Option (List Edge) :=
  if g.contains i then
    some (sortEdges ((g.edges.filter (·.source.same i)).map fun e => ⟨i, e.target, e.edgeClass⟩))
  else none

def adjacency (g : Graph) : List (Identity × List Edge) :=
  (sortIdentities g.nodes).map fun i => (i, (g.edgesFrom? i).getD [])

def details? (g : Graph) (i : Identity) : Option Details :=
  (g.find? i).map fun o =>
    { identity := i
      payload := o.payload
      incoming := sortIdentities ((g.edges.filter (·.target.same i)).map (·.source))
      outgoing := sortIdentities ((g.edges.filter (·.source.same i)).map (·.target)) }

end Graph

end CatalogPlan
