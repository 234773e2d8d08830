import CatalogPlan.Emission
import CatalogPlan.Graph.Build
import CatalogPlan.Routine.Augment

/-!
# Planning

From the captured batches to the order of creation. Any fault ends the run
without a plan.
-/

namespace CatalogPlan

structure Planned where
  graph : Graph
  view : View
  plan : Plan
deriving Inhabited

def plan [Sql.Parser] (batches : Batches) (failedKinds : List Value) : Traced Planned := do
  let batches ← Routine.augmentAll batches
  let graph ← Graph.build batches failedKinds
  let view ← graph.breakCycles
  let plan ← view.emit
  Traced.emit (.planned plan.order.length plan.deferred.length graph.diagnostics.length)
  return ⟨graph, view, plan⟩

end CatalogPlan
