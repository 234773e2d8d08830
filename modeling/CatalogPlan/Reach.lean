/-!
# Reachability along arcs

A relation on a finite set of points given by its arcs: what can be reached
from a point, and the classes of points that reach each other.
-/

namespace CatalogPlan.Reach

variable {α : Type} [DecidableEq α]

def targets (arcs : List (α × α)) (a : α) : List α :=
  arcs.filterMap fun (source, target) => if source = a then some target else none

/-- The points seen by a search that goes on from the points at hand. Each
point is expanded once, so one step for each arc and each point at hand is
enough. -/
def search (arcs : List (α × α)) : (steps : Nat) → (pending seen : List α) → List α
  | 0, _, seen => seen
  | _ + 1, [], seen => seen
  | steps + 1, a :: pending, seen =>
    if a ∈ seen then search arcs steps pending seen
    else search arcs steps (targets arcs a ++ pending) (a :: seen)

def reachable (arcs : List (α × α)) (a : α) : List α :=
  search arcs (arcs.length + 1) [a] []

def reaches (arcs : List (α × α)) (a b : α) : Bool :=
  decide (b ∈ reachable arcs a)

def closure (arcs : List (α × α)) (points : List α) : List (α × List α) :=
  points.map fun a => (a, reachable arcs a)

def mutual? (table : List (α × List α)) (a : α) (reached : List α) : List α :=
  table.filterMap fun (b, back) => if b ∈ reached ∧ a ∈ back then some b else none

def components (arcs : List (α × α)) (points : List α) : List (List α) :=
  let table := closure arcs points
  table.foldl
    (fun found (a, reached) => if found.any (a ∈ ·) then found else found ++ [mutual? table a reached]) []

/-- The classes of more than one point: those that lie on a common cycle. -/
def cyclicComponents (arcs : List (α × α)) (points : List α) : List (List α) :=
  (components arcs points).filter fun c => 1 < c.length

end CatalogPlan.Reach
