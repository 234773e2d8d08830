import CatalogPlan.Planning

/-!
# Working on one graph

The latest graph, the view made of it, and the plan made of the view. A new
graph makes view and plan out of date.
-/

namespace CatalogPlan

inductive Stage where
  | graph
  | view
  | plan
deriving DecidableEq, Inhabited

def Stage.name : Stage → String
  | .graph => "graph"
  | .view => "view"
  | .plan => "plan"

inductive StepFault where
  | missing (stage : Stage)
  | fault (fault : Fault)
  | unknownObject (i : Identity)
deriving Inhabited

structure Workspace where
  graph : Option Graph
  view : Option View
  plan : Option Plan
deriving Inhabited

namespace Workspace

def empty : Workspace := ⟨none, none, none⟩

def needs (stage : Stage) : Option α → Except StepFault α
  | some a => .ok a
  | none => .error (.missing stage)

def theGraph (w : Workspace) : Except StepFault Graph := needs .graph w.graph

def theView (w : Workspace) : Except StepFault View := needs .view w.view

def thePlan (w : Workspace) : Except StepFault Plan := needs .plan w.plan

/-- Builds a graph. One that cannot be built leaves everything as it is. -/
def build (w : Workspace) (batches : Batches) (failedKinds : List Value) :
    Except Fault Graph × Workspace :=
  match (Graph.build batches failedKinds).result with
  | .ok g => (.ok g, ⟨some g, none, none⟩)
  | .error fault => (.error fault, w)

def breakCycles (w : Workspace) : Except StepFault View × Workspace :=
  match w.theGraph with
  | .error fault => (.error fault, w)
  | .ok g =>
    match g.breakCycles.result with
    | .ok v => (.ok v, { w with view := some v })
    | .error fault => (.error (.fault fault), w)

def emit (w : Workspace) : Except StepFault Plan × Workspace :=
  match w.theView with
  | .error fault => (.error fault, w)
  | .ok v =>
    match v.emit.result with
    | .ok p => (.ok p, { w with plan := some p })
    | .error fault => (.error (.fault fault), w)

def verify (w : Workspace) : Except StepFault (List Edge) := do
  let g ← w.theGraph
  return (← w.thePlan).unresolved g

def edgesFrom (w : Workspace) (i : Identity) : Except StepFault (List Edge) := do
  match (← w.theGraph).edgesFrom? i with
  | some es => return es
  | none => throw (.unknownObject i)

end Workspace

end CatalogPlan
