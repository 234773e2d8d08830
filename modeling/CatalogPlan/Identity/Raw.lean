import CatalogPlan.Identity
import CatalogPlan.Value.Spelling

/-!
# Identities as readers report them

A reader gives a kind, a number and two names, each as it found it. Nothing is
checked here.
-/

namespace CatalogPlan

inductive KindSource where
  | known (kind : Kind)
  | reported (value : Value)
deriving Inhabited

def Kind.spell (kind : Kind) : String :=
  s!"<CatalogKind.{String.ofList (kind.name.toList.map Char.toUpper)}: '{kind.name}'>"

def KindSource.spell : KindSource → String
  | .known kind => kind.spell
  | .reported value => value.spell

structure RawIdentity where
  catalogKind : KindSource
  oid : Value
  schemaName : Value
  localName : Value
deriving Inhabited

namespace RawIdentity

def spell (raw : RawIdentity) : String :=
  s!"RawIdentity(catalog_kind={raw.catalogKind.spell}, oid={raw.oid.spell}, " ++
    s!"schema_name={raw.schemaName.spell}, local_name={raw.localName.spell})"

/-- Reads the fields of an identity. The name may be nested in a field of its
own; the kind may stand under either of two names. -/
def ofFields (fields : Fields) : RawIdentity :=
  let kind := .reported ((fields.get? "catalog_kind").getD (fields.get "catalog"))
  let empty := Value.text ""
  match fields.get "name" with
  | .object nested =>
    ⟨kind, fields.get "oid", (Fields.get nested "schema_name").orElse empty,
      (Fields.get nested "local_name").orElse empty⟩
  | name =>
    ⟨kind, fields.get "oid", (fields.get "schema_name").orElse empty,
      (fields.get "local_name").orElse (name.orElse empty)⟩

end RawIdentity

def Key.spell : Key → String
  | .name s => Text.spelled s
  | .oid n => toString n

def Identity.spell (i : Identity) : String :=
  s!"Identity(kind={i.kind.spell}, key={i.key.spell})"

end CatalogPlan
