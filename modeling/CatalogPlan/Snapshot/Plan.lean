import CatalogPlan.Capture
import CatalogPlan.Settings
import CatalogPlan.Snapshot.Reader

/-!
# Planning a live database

All kinds that the reader has queries for are fetched in one snapshot, and the
connections are closed before the plan is handed out.
-/

namespace CatalogPlan.Snapshot.Session

def mainThread : String := "main"

/-- Fetches a kind. That the fetch fails is its outcome and no fault yet. -/
def completion (schemas : Value) (kind : Kind) : Run Session (Completion Fault) := do
  return ⟨kind, ← Run.outcome (fetch mainThread kind schemas)⟩

def planSchemas [Sql.Parser] (schemas : List String) (workers : Int) : Run Session Planned := do
  checkWorkers workers
  let kinds := (← get).reader.kinds
  let completions ← kinds.mapM (completion (.list (schemas.map .text)))
  let captured ← Captured.ofCompletions completions
  (plan captured.toBatches []).result

/-- Plans the creation of the schemas that the settings name. All kinds are fetched one
after another on one thread, `mainThread`, and the fetches go on after one that has
failed, where a pool of threads would share them out and leave out those that have not
begun. So the server may note other calls for a pool. What is captured, and with it the
plan, does not depend on the order in which fetches end. -/
def planSettings [Sql.Parser] (settings : Settings) : Run Session Planned :=
  whileOpen (planSchemas settings.schemas settings.workers)

end CatalogPlan.Snapshot.Session
