import CatalogPlan.Acyclic
import CatalogPlan.Heap
import CatalogPlan.Value.Json

/-!
# The order of creation

A view is emitted by counting for each object the dependencies that are not emitted
yet. Objects that wait for nothing are in a queue, and come out of it by their creation
ranks. A plan can be checked against the graph it was made for.
-/

namespace CatalogPlan

structure Plan where
  order : List Identity
  deferred : List Edge
deriving Inhabited

namespace Emission

/-- Whether an object comes out of the queue before another one. Two objects of one rank
would have to be compared themselves, and objects have no order. -/
def before (i j : Identity) : Except Fault Bool :=
  if i.creationRank = j.creationRank then
    if i.same j then .ok false else .error (.wrongShape .ordered (.text i.text))
  else .ok (creationRankLe i.creationRank j.creationRank)

/-- Objects, each with the number of dependencies that it waits for. -/
abbrev Counts := List (Identity × Int)

namespace Counts

def ofEdges (nodes : List Identity) (es : List Edge) : Counts :=
  nodes.map fun i => (i, es.countP (·.source.same i))

def free (counts : Counts) : List Identity :=
  (counts.filter (·.2 == 0)).map (·.1)

def decrement (counts : Counts) (i : Identity) : Counts :=
  counts.map fun (j, n) => (j, if j.same i then n - 1 else n)

def isFree (counts : Counts) (i : Identity) : Bool :=
  counts.any fun (j, n) => j.same i && n == 0

end Counts

structure Waiting where
  counts : Counts
  queue : Array Identity

namespace Waiting

def start (nodes : List Identity) (es : List Edge) : Except Fault Waiting := do
  let counts := Counts.ofEdges nodes es
  return ⟨counts, ← Heap.ofList before counts.free⟩

/-- One dependency of an object is there. The object is queued if it was the last one. -/
def notify (w : Waiting) (i : Identity) : Except Fault Waiting := do
  let counts := w.counts.decrement i
  if counts.isFree i then return ⟨counts, ← Heap.push before w.queue i⟩
  else return ⟨counts, w.queue⟩

end Waiting

def dependents (es : List Edge) (i : Identity) : List Identity :=
  (es.filter (·.target.same i)).map (·.source)

def drain (es : List Edge) : (steps : Nat) → Waiting → Except Fault (List Identity)
  | 0, _ => return []
  | steps + 1, w => do
    match ← Heap.pop? before w.queue with
    | none => return []
    | some (i, queue) =>
      return i :: (← drain es steps (← (dependents es i).foldlM Waiting.notify ⟨w.counts, queue⟩))

/-- The objects that come out of the queue. One step for each object is enough. -/
def run (nodes : List Identity) (es : List Edge) : Except Fault (List Identity) := do
  drain es nodes.length (← Waiting.start nodes es)

end Emission

namespace View

def rowLe : List String → List String → Bool
  | [], _ => true
  | _ :: _, [] => false
  | a :: as, b :: bs => textLt a b || (a == b && rowLe as bs)

def dump (v : View) : String :=
  let nodes := sortBy textLe (v.nodes.map (·.text))
  let rows := sortBy rowLe (v.edges.map fun e => [e.source.text, e.target.text, e.edgeClass.name])
  Json.pretty 0 (.object
    [("nodes", .list (nodes.map .text)),
     ("edges", .list (rows.map fun row => .list (row.map .text)))])

def left (v : View) (order : List Identity) : List Identity :=
  v.nodes.filter fun i => !order.any (·.same i)

def emit (v : View) : Traced Plan := do
  let order ← Emission.run v.nodes v.retained
  if order.length = v.nodes.length then
    Traced.emit (.orderEmitted order.length v.deferred.length)
    return ⟨order, v.deferred⟩
  else
    Traced.emit (.stillCyclic v.dump)
    Traced.fail (.unordered (sortIdentities (v.left order)))

end View

namespace Plan

def position? (p : Plan) (i : Identity) : Option Nat :=
  (p.order.zipIdx.reverse.find? fun (j, _) => j.same i).map (·.2)

/-- The edges of a graph that the plan leaves unsatisfied. A retained edge needs
its target before its source, a deferred one needs both ends. -/
def unresolved (p : Plan) (g : Graph) : List Edge :=
  g.sortedEdges.filter fun e =>
    match p.position? e.source, p.position? e.target with
    | some source, some target => !p.deferred.any (·.same e) && decide (source < target)
    | _, _ => true

/-- Every identity of the order at its first occurrence, with its last place. -/
def positions (p : Plan) : List (Identity × Nat) :=
  (distinctIdentities p.order).map fun i => (i, (p.position? i).getD 0)

end Plan

end CatalogPlan
