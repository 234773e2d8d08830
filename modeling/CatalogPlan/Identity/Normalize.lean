import CatalogPlan.Fault
import CatalogPlan.Name.Canonical
import CatalogPlan.Number.Numeral

/-!
# Normal identities

A reported identity becomes an identity by canonical name, by number when no
name is known, or the identity of a schema when only the schema is named.
-/

namespace CatalogPlan

namespace RawIdentity

def ofValue : Value → Except Fault RawIdentity
  | .object fields => .ok (ofFields fields)
  | v => .error (.malformed (.value v) .notMapping)

end RawIdentity

/-- A value as a name: absent counts as empty, and the blanks around it go. -/
def readName : Value → Except Fault String
  | .text s => .ok (Text.strip s)
  | v => if v.isTruthy then .error (.wrongShape .text v) else .ok ""

def readOid? : Value → Except Fault (Option Int)
  | .int n => .ok (some n)
  | .bool b => .ok (some (if b then 1 else 0))
  | .float (.infinite _) => .error .infiniteOid
  | .float x => .ok x.truncate?
  | .text s => .ok (Numeral.integer? s)
  | _ => .ok none

def RawIdentity.readOid (raw : RawIdentity) : Except Fault Int := do
  match ← readOid? raw.oid with
  | some n => return n
  | none => throw (.malformed (.raw raw) (.oidNotNumeric raw.oid))

def RawIdentity.named (raw : RawIdentity) (kind : Kind) (names : List String) :
    Except Fault Identity :=
  match Name.normalize names with
  | .ok name => .ok ⟨kind, .name name⟩
  | .error fault => .error (.malformed (.raw raw) (.badName fault))

def RawIdentity.kind (raw : RawIdentity) : Except Fault Kind :=
  match raw.catalogKind with
  | .known kind => .ok kind
  | .reported v =>
    match Kind.ofValue? v with
    | some kind => .ok kind
    | none => .error (.malformed (.raw raw) (.unknownKind v))

def RawIdentity.normalize (raw : RawIdentity) : Except Fault Identity := do
  let kind ← raw.kind
  let schema ← readName raw.schemaName
  let localName ← readName raw.localName
  if localName ≠ "" then
    raw.named kind (if schema = "" then [localName] else [schema, localName])
  else if schema ≠ "" then
    raw.named .namespace [schema]
  else
    match raw.oid with
    | .null => throw (.malformed (.raw raw) .nothingGiven)
    | _ => return ⟨kind, .oid (← raw.readOid)⟩

def Identity.ofName (kind : KindSource) (name : Value) : Except Fault Identity :=
  RawIdentity.normalize ⟨kind, .null, .text "", name⟩

def Identity.ofOid (kind : Value) (n : Int) : Except Fault Identity :=
  match Kind.ofValue? kind with
  | some kind => .ok ⟨kind, .oid n⟩
  | none => .error (.unknownKind kind)

end CatalogPlan
