import CatalogPlan.Planning

/-!
# Capturing a catalog

A reader fetches the records of several kinds at a time. The captured objects
are complete or there are none: the first failure ends the capture. A fault of a
fetch becomes one of the capture; an interruption passes through as it is.
-/

namespace CatalogPlan

/-- What a fetch can end with in place of records. An interruption, such as the wish of
the user to stop or the exit of the program, is no fault. -/
inductive Halt where
  | fault (fault : Fault)
  | interruption (name : String)
deriving Inhabited

/-- Causes for which a capture can stop: faults, or whatever halts a fetch. -/
class Cause (ε : Type) where
  ofFault : Fault → ε
  /-- Why a capture stops when the fetch of a kind did. -/
  ofFetch : Kind → ε → ε

instance : Cause Fault :=
  ⟨id, .captureFailed⟩

instance : Cause Halt where
  ofFault := .fault
  ofFetch
    | kind, .fault cause => .fault (.captureFailed kind cause)
    | _, .interruption name => .interruption name

structure Completion (ε : Type) where
  kind : Kind
  outcome : Except ε (List Value)

variable {ε : Type} [Cause ε]

abbrev Captured := List (Kind × List Object)

namespace Captured

def insert (captured : Captured) (kind : Kind) (objects : List Object) : Captured :=
  match captured with
  | [] => [(kind, objects)]
  | (known, before) :: rest =>
    if known = kind then (known, objects) :: rest else (known, before) :: insert rest kind objects

def toBatches (captured : Captured) : Batches :=
  captured.map fun (kind, objects) => (kind.name, objects)

def add (captured : Captured) (c : Completion ε) : Except ε Captured := do
  match c.outcome with
  | .error cause => throw (Cause.ofFetch c.kind cause)
  | .ok records =>
    return captured.insert c.kind (← (records.mapM Object.ofRecord).mapError Cause.ofFault)

def ofCompletions (completions : List (Completion ε)) : Except ε Captured :=
  completions.foldlM add []

end Captured

def checkWorkers (workers : Int) : Except Fault Unit :=
  if workers < 1 then .error .noWorkers else .ok ()

/-- Captures some kinds with a reader whose fetches complete in the order of the
requests. -/
def capture (fetch : Kind → Except ε (List Value)) (kinds : List Kind) (workers : Int) :
    Except ε Captured := do
  (checkWorkers workers).mapError Cause.ofFault
  Captured.ofCompletions (kinds.map fun kind => ⟨kind, fetch kind⟩)

def planCaptured [Sql.Parser] (fetch : Kind → Except Fault (List Value)) (kinds : List Kind)
    (workers : Int) : Traced Planned := do
  let captured ← capture fetch kinds workers
  plan captured.toBatches []

end CatalogPlan
