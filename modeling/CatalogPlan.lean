import CatalogPlan.Capture
import CatalogPlan.Settings
import CatalogPlan.Snapshot.Plan
import CatalogPlan.Workspace
import CatalogPlan.Proofs.Event
import CatalogPlan.Proofs.Identity
import CatalogPlan.Proofs.Acyclic
import CatalogPlan.Proofs.Emission
import CatalogPlan.Proofs.Faults
import CatalogPlan.Proofs.Graph.Exact
import CatalogPlan.Proofs.Planning
import CatalogPlan.Proofs.Arrival.Graph
import CatalogPlan.Proofs.Arrival.Plan
import CatalogPlan.Proofs.LeastOrder
import CatalogPlan.Proofs.Deferral
import CatalogPlan.Proofs.Widening
import CatalogPlan.Proofs.Name.Qualified
import CatalogPlan.Proofs.Rewording
import CatalogPlan.Proofs.Diagnosis
import CatalogPlan.Proofs.OnePass
import CatalogPlan.Proofs.Stuck
import CatalogPlan.Proofs.Graph.Ownership
import CatalogPlan.Proofs.Graph.Incomplete
import CatalogPlan.Proofs.Conflict
import CatalogPlan.Proofs.Closure
import CatalogPlan.Proofs.Sql.Walk
import CatalogPlan.Proofs.Routine.Overloads
import CatalogPlan.Proofs.Name.Unquoted
import CatalogPlan.Proofs.Routine.Failure
import CatalogPlan.Proofs.Sql.Comments
import CatalogPlan.Proofs.Sql.Quoted
import CatalogPlan.Proofs.Routine.Quoted
import CatalogPlan.Proofs.Name.Grammar
import CatalogPlan.Proofs.Name.Arguments
import CatalogPlan.Proofs.Routine.BaseName
import CatalogPlan.Proofs.Graph.Failure
import CatalogPlan.Proofs.Graph.Bystander
import CatalogPlan.Proofs.Unresolved
import CatalogPlan.Proofs.Bystander
import CatalogPlan.Proofs.Arrival.Order
import CatalogPlan.Proofs.Capture
import CatalogPlan.Proofs.Snapshot.Reader
import CatalogPlan.Proofs.Snapshot.Uses
import CatalogPlan.Proofs.Snapshot.WhileOpen
import CatalogPlan.Proofs.Graph.Uncaptured
import CatalogPlan.Proofs.SortKeys
