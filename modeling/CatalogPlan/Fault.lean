import CatalogPlan.Identity.Raw
import CatalogPlan.Name.Identifier

/-!
# What can go wrong

Every cause has a constructor; the wording is in `Fault.message`.
-/

namespace CatalogPlan

inductive Subject where
  | raw (raw : RawIdentity)
  | value (v : Value)
  | identity (i : Identity)
deriving Inhabited

def Subject.spell : Subject → String
  | .raw r => r.spell
  | .value v => v.spell
  | .identity i => i.spell

inductive Defect where
  | unknownKind (v : Value)
  | notMapping
  | badName (fault : NameFault)
  | nothingGiven
  | oidNotNumeric (oid : Value)
  | unknownEdgeClass (v : Value)
  | unknownRecordKind (v : Value)
  | kindMismatch (record identity : Kind)
  | unqualified
deriving Inhabited

def Defect.reason : Defect → String
  | .unknownKind v => s!"unrecognized catalog kind {v.spell}"
  | .notMapping => "identity must be a mapping"
  | .badName fault => fault.message
  | .nothingGiven => "neither an oid nor a name was given"
  | .oidNotNumeric oid => s!"oid {oid.spell} is not numeric"
  | .unknownEdgeClass v => s!"unknown edge class {v.spell}"
  | .unknownRecordKind v => s!"unrecognized record kind {v.spell}"
  | .kindMismatch record identity => s!"record kind {record.name} does not match {identity.name}"
  | .unqualified => "captured objects need a schema-qualified name"

inductive Shape where
  | text
  | mapping
  | sequence
  | pairs
  | sqlText
  | ordered
deriving DecidableEq, Inhabited

inductive Fault where
  | unknownKind (v : Value)
  | unknownEdgeClass (v : Value)
  | badName (fault : NameFault)
  | malformed (subject : Subject) (defect : Defect)
  | conflict (identity : Identity) (first second : Fields)
  /-- A cycle survives without every deferrable edge. -/
  | unbreakable (identities : List Identity) (edges : List Edge)
  | unordered (remaining : List Identity)
  | incomplete (kinds : List Kind) (source target : Option Identity)
  | captureFailed (kind : Kind) (cause : Fault)
  | noWorkers
  | unreachable
  | refused
  | notOpen
  | noQuery (kind : Kind)
  /-- A value of another shape was needed. -/
  | wrongShape (needed : Shape) (v : Value)
  /-- An item of a payload given as pairs is no pair. -/
  | notPair (index length : Nat)
  | infiniteOid
  | bareListMember
  | namelessCall
  /-- A call without a name cannot be sorted among others. -/
  | unsortableCalls
deriving Inhabited

def sortedTexts (xs : List String) : List String :=
  sortBy textLe xs.eraseDups

def edgeClassNames (edges : List Edge) : List String :=
  sortedTexts (edges.map (·.edgeClass.name))

def identityTexts (is : List Identity) : String :=
  ", ".intercalate (is.map (·.text))

def kindNames (kinds : List Kind) : List String :=
  sortBy textLe (kinds.map (·.name))

def Fault.message : Fault → String
  | .unknownKind v => s!"{v.spell} is not a catalog kind"
  | .unknownEdgeClass v => s!"{v.spell} is not a valid EdgeClass"
  | .badName fault => fault.message
  | .malformed subject defect => s!"Malformed identity {subject.spell}: {defect.reason}"
  | .conflict identity _ _ =>
    s!"{identity.text} was captured twice with different payloads; the catalog snapshot is inconsistent"
  | .unbreakable identities edges =>
    let classes := ", ".intercalate (edgeClassNames edges)
    s!"Cannot linearize cycle between {identityTexts identities} (edge classes: {classes})"
  | .unordered remaining =>
    s!"{remaining.length} objects could not be ordered after cycle breaking: {identityTexts remaining}"
  | .incomplete kinds source target =>
    "Capture failed for " ++ ", ".intercalate (kindNames kinds) ++
      match source with
      | none => ""
      | some source =>
        let missing := (target.map (·.text)).getD Value.inMessages.null
        s!"; {source.text} depends on {missing} which could not be captured"
  | .captureFailed kind _ => s!"Could not load {kind.name} batch"
  | .noWorkers => "max_workers must be greater than 0"
  | .unreachable => "unreachable"
  | .refused => "refused"
  | .notOpen => "Snapshot reader is not open"
  | .noQuery kind => kind.spell
  | .notPair index length =>
    s!"dictionary update sequence element #{index} has length {length}; 2 is required"
  | .wrongShape _ _ => "wrong shape"
  | .infiniteOid => "infinite oid"
  | .bareListMember => "bare list member"
  | .namelessCall => "nameless call"
  | .unsortableCalls => "unsortable calls"

end CatalogPlan
