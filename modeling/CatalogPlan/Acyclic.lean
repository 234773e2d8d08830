import CatalogPlan.Event
import CatalogPlan.Reach

/-!
# Cycle breaking

References on cycles are deferred until the graph has a linear order. In each
class of mutually dependent objects the candidates are tried in descending
order, and one is deferred when its ends still lie on a common cycle. A cycle
without any reference cannot be broken.
-/

namespace CatalogPlan

structure View where
  nodes : List Identity
  retained : List Edge
  deferred : List Edge
deriving Inhabited

namespace View

/-- Adds an edge; one that joins the same objects takes over its class. -/
def addEdge (es : List Edge) (e : Edge) : List Edge :=
  if es.any (·.joins e.source e.target) then
    es.map fun k => if k.joins e.source e.target then { k with edgeClass := e.edgeClass } else k
  else es ++ [e]

def ofEdges (nodes : List Identity) (es deferred : List Edge) : View :=
  ⟨distinctIdentities (nodes ++ es.flatMap fun e => [e.source, e.target]),
    es.foldl addEdge [], deferred⟩

/-- The retained edges, each with its source as the nodes have it. -/
def edges (v : View) : List Edge :=
  v.retained.map fun e => { e with source := (v.nodes.find? (·.same e.source)).getD e.source }

def retainedEdges (v : View) : List Edge :=
  sortEdges v.edges

end View

namespace Edge

def arc (e : Edge) : Address × Address :=
  (e.source.address, e.target.address)

def inside (e : Edge) (points : List Address) : Bool :=
  decide (e.source.address ∈ points) && decide (e.target.address ∈ points)

end Edge

namespace Acyclic

def arcs (es : List Edge) : List (Address × Address) :=
  es.map Edge.arc

def members (nodes : List Identity) (points : List Address) : List Identity :=
  sortIdentities (nodes.filter fun i => decide (i.address ∈ points))

/-- The classes of mutually dependent objects, the one with the least sort key
first. -/
def components (nodes : List Identity) (es : List Edge) : List (List Identity) :=
  let found := Reach.cyclicComponents (arcs es) (nodes.map (·.address))
  sortOn sortKeyLe (fun c => (c.head?.map Identity.sortKey).getD ("", ""))
    (found.map (members nodes))

def fixedCycle? (component : List Identity) (es : List Edge) : Option Fault :=
  let fixed := es.filter fun e => !e.edgeClass.deferrable
  let trapped := (Reach.cyclicComponents (arcs fixed) (component.map (·.address))).flatten
  if trapped.isEmpty then none
  else some (.unbreakable (members component trapped)
    (sortEdges (fixed.filter (·.inside trapped))))

/-- Goes through candidates and defers each one whose target still reaches its
source. Gives the edges that stay and the deferred ones in order. -/
def deferFrom (es : List Edge) : List Edge → List Edge × List Edge
  | [] => (es, [])
  | e :: rest =>
    if Reach.reaches (arcs es) e.target.address e.source.address then
      let (kept, deferred) := deferFrom (es.filter fun k => !k.joins e.source e.target) rest
      (kept, e :: deferred)
    else deferFrom es rest

def candidates (es : List Edge) : List Edge :=
  (sortEdges (es.filter (·.edgeClass == .referential))).reverse

def breakComponent (es : List Edge) (component : List Identity) : Traced (List Edge) := do
  let own := es.filter (·.inside (component.map (·.address)))
  match fixedCycle? component own with
  | some fault => Traced.fail fault
  | none =>
    let (_, deferred) := deferFrom own (candidates own)
    deferred.forM fun e => Traced.emit (.edgeDeferred e)
    return deferred

end Acyclic

open Acyclic in
def Graph.breakCycles (g : Graph) : Traced View := do
  let cyclic := components g.nodes g.edges
  let deferred ← cyclic.mapM (breakComponent g.edges)
  let deferred := deferred.flatten
  if !deferred.isEmpty then
    Traced.emit (.cyclesBroken deferred.length cyclic.length)
  return ⟨g.nodes, g.edges.filter (fun e => !deferred.any fun d => e.joins d.source d.target),
    deferred⟩

end CatalogPlan
