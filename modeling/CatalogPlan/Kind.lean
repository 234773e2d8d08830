import CatalogPlan.Text.Blank
import CatalogPlan.Text.Lower
import CatalogPlan.Value

/-!
# Kinds of catalog objects

Every kind of object is recorded in one system catalog; the relation catalog
holds four kinds. Kinds have a natural order of creation.
-/

namespace CatalogPlan

inductive Catalog where
  | relation
  | routine
  | type
  | constraint
  | trigger
  | policy
  | extension
  | namespace
deriving DecidableEq, Repr, Inhabited

def Catalog.name : Catalog → String
  | .relation => "pg_class"
  | .routine => "pg_proc"
  | .type => "pg_type"
  | .constraint => "pg_constraint"
  | .trigger => "pg_trigger"
  | .policy => "pg_policy"
  | .extension => "pg_extension"
  | .namespace => "pg_namespace"

inductive Kind where
  | table
  | view
  | sequence
  | routine
  | trigger
  | constraint
  | index
  | type
  | policy
  | extension
  | namespace
deriving DecidableEq, Repr, Inhabited

namespace Kind

def all : List Kind :=
  [.table, .view, .sequence, .routine, .trigger, .constraint, .index, .type, .policy,
   .extension, .namespace]

def name : Kind → String
  | .table => "table"
  | .view => "view"
  | .sequence => "sequence"
  | .routine => "function_or_procedure"
  | .trigger => "trigger"
  | .constraint => "constraint"
  | .index => "index"
  | .type => "type"
  | .policy => "policy"
  | .extension => "extension"
  | .namespace => "namespace"

def catalog : Kind → Catalog
  | .table | .view | .sequence | .index => .relation
  | .routine => .routine
  | .type => .type
  | .constraint => .constraint
  | .trigger => .trigger
  | .policy => .policy
  | .extension => .extension
  | .namespace => .namespace

def priority : Kind → Nat
  | .namespace | .extension => 0
  | .type => 1
  | .sequence => 2
  | .table => 3
  | .index => 4
  | .constraint => 5
  | .view => 6
  | .routine => 7
  | .trigger => 8
  | .policy => 9

/-- The other names of kinds. The name of a catalog stands for the first kind
that it holds. -/
def aliases : List (String × Kind) :=
  [("function", .routine), ("procedure", .routine), ("routine", .routine),
   ("materialized_view", .view), ("udt", .type), ("schema", .namespace),
   ("pg_class", .table), ("pg_proc", .routine), ("pg_type", .type),
   ("pg_constraint", .constraint), ("pg_trigger", .trigger), ("pg_policy", .policy),
   ("pg_extension", .extension), ("pg_namespace", .namespace)]

/-- The kind that a name, an alias or the name of a catalog stands for, whatever
its case and the blanks around it. -/
def ofName? (s : String) : Option Kind :=
  let folded := Text.lower (Text.strip s)
  match all.find? (·.name == folded) with
  | some kind => some kind
  | none => aliases.lookup folded

def ofValue? : Value → Option Kind
  | .text s => ofName? s
  | _ => none

end Kind

inductive EdgeClass where
  | structural
  | referential
  | ownership
deriving DecidableEq, Repr, Inhabited

namespace EdgeClass

def name : EdgeClass → String
  | .structural => "structural"
  | .referential => "referential"
  | .ownership => "ownership"

def deferrable : EdgeClass → Bool
  | .referential => true
  | _ => false

def binding : EdgeClass → Nat
  | .referential => 0
  | .structural => 1
  | .ownership => 2

def ofName? : String → Option EdgeClass
  | "structural" => some .structural
  | "referential" => some .referential
  | "ownership" => some .ownership
  | _ => none

def ofValue? : Value → Option EdgeClass
  | .text s => ofName? s
  | _ => none

end EdgeClass

end CatalogPlan
