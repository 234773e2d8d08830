import CatalogPlan.Graph

/-!
# Events of a planning run

What a run reports while it goes on. A step of a run gives its events besides
its result, also when it fails.
-/

namespace CatalogPlan

inductive Level where
  | debug
  | info
  | warning
  | error
deriving DecidableEq, Inhabited

def Level.name : Level → String
  | .debug => "DEBUG"
  | .info => "INFO"
  | .warning => "WARNING"
  | .error => "ERROR"

inductive Event where
  /-- A name found in a routine body is no name. -/
  | unreadableName (schema name : Option String)
  /-- A relation named in a routine body was not captured. -/
  | unknownRelation (schema : Option String) (name : String)
  | bodyReferencesAdded (count : Nat) (routine : Identity)
  /-- A schema was added for a reference to it. -/
  | schemaAdded (schema source : Identity)
  | referenceDropped (diagnostic : Diagnostic)
  | classStrengthened (edge : Edge) (stronger : EdgeClass)
  | graphBuilt (nodes edges dropped : Nat)
  | edgeDeferred (edge : Edge)
  | cyclesBroken (references components : Nat)
  | stillCyclic (dump : String)
  | orderEmitted (objects deferred : Nat)
  | planned (objects deferred dropped : Nat)
deriving Inhabited

namespace Event

def level : Event → Level
  | .graphBuilt .. | .orderEmitted .. | .planned .. => .info
  | .cyclesBroken .. => .warning
  | .stillCyclic .. => .error
  | _ => .debug

def topic : Event → String
  | .unreadableName .. | .unknownRelation .. | .bodyReferencesAdded .. => "schema_graph.routines"
  | .schemaAdded .. | .referenceDropped .. | .classStrengthened .. | .graphBuilt .. =>
    "schema_graph.builder"
  | .edgeDeferred .. | .cyclesBroken .. => "schema_graph.cycles"
  | .stillCyclic .. | .orderEmitted .. => "schema_graph.emitter"
  | .planned .. => "schema_graph.pipeline"

def spellName (schema name : Option String) : String :=
  let part (s : Option String) := (s.map Text.spelled).getD Value.inMessages.null
  s!"({part schema}, {part name})"

def message : Event → String
  | .unreadableName schema name =>
    s!"Cannot normalize {spellName schema name} found in routine body, ignoring"
  | .unknownRelation schema name =>
    s!"Relation {spellName schema (some name)} referenced in routine body is not captured, ignoring"
  | .bodyReferencesAdded count routine => s!"Adding {count} body references to {routine.text}"
  | .schemaAdded schema source => s!"Adding synthetic schema node {schema.text} for {source.text}"
  | .referenceDropped diagnostic => s!"Dropping reference {diagnostic.text}"
  | .classStrengthened edge stronger =>
    s!"{edge.source.text} -> {edge.target.text} declared as {edge.edgeClass.name} and {stronger.name}"
  | .graphBuilt nodes edges dropped =>
    s!"Built dependency graph with {nodes} nodes, {edges} edges, {dropped} dropped references"
  | .edgeDeferred edge => s!"Deferring {edge.text}"
  | .cyclesBroken references components =>
    s!"Deferred {references} references to break {components} dependency cycles"
  | .stillCyclic dump => "Dependency graph still cyclic after cycle breaking:\n" ++ dump
  | .orderEmitted objects deferred =>
    s!"Emitted {objects} objects with {deferred} deferred references"
  | .planned objects deferred dropped =>
    s!"Planned {objects} objects, {deferred} deferred references, " ++
      s!"{dropped} out-of-scope references dropped"

end Event

/-- A result with the events on the way to it. -/
structure Traced (α : Type) where
  events : List Event
  result : Except Fault α

namespace Traced

instance : Monad Traced where
  pure a := ⟨[], .ok a⟩
  bind x f :=
    match x.result with
    | .ok a => ⟨x.events ++ (f a).events, (f a).result⟩
    | .error fault => ⟨x.events, .error fault⟩

def emit (e : Event) : Traced Unit :=
  ⟨[e], .ok ()⟩

def fail (fault : Fault) : Traced α :=
  ⟨[], .error fault⟩

instance : MonadLift (Except Fault) Traced where
  monadLift x := ⟨[], x⟩

theorem result_pure (a : α) : (pure a : Traced α).result = .ok a := rfl

theorem result_bind (x : Traced α) (f : α → Traced β) :
    (x >>= f).result = x.result.bind fun a => (f a).result := by
  show (match x.result with | .ok a => _ | .error fault => _ : Traced β).result = _
  cases x.result <;> rfl

end Traced

end CatalogPlan
