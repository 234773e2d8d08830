import CatalogPlan.Kind
import CatalogPlan.Sorting

/-!
# Identities of catalog objects

An object is known by its kind and a key: the canonical name, or the number
that the snapshot gave it until the graph resolves it. Two identities are the
same object when catalog and key agree, so a table and a view of one name are.
-/

namespace CatalogPlan

inductive Key where
  | name (text : String)
  | oid (n : Int)
deriving DecidableEq, Inhabited

namespace Key

def text : Key → String
  | .name s => s
  | .oid n => toString n

def isNumeric : Key → Bool
  | .name _ => false
  | .oid _ => true

end Key

/-- Where an object is recorded: what identities are compared by. -/
structure Address where
  catalog : Catalog
  key : Key
deriving DecidableEq, Inhabited

structure Identity where
  kind : Kind
  key : Key
deriving DecidableEq, Inhabited

namespace Identity

def address (i : Identity) : Address :=
  ⟨i.kind.catalog, i.key⟩

def same (a b : Identity) : Bool :=
  a.address == b.address

def isNumeric (i : Identity) : Bool :=
  i.key.isNumeric

def sortKey (i : Identity) : String × String :=
  (i.key.text, i.kind.catalog.name)

def creationRank (i : Identity) : Nat × (String × String) :=
  (i.kind.priority, i.sortKey)

def text (i : Identity) : String :=
  i.kind.name ++ ":" ++ i.key.text

end Identity

def sortKeyLe : String × String → String × String → Bool :=
  lexLe textLt textLe

def creationRankLe : Nat × (String × String) → Nat × (String × String) → Bool :=
  lexLe (fun a b => decide (a < b)) sortKeyLe

def sortIdentities (xs : List Identity) : List Identity :=
  sortOn sortKeyLe Identity.sortKey xs

/-- The first of several identities of the same object stands for all. -/
def distinctIdentities (xs : List Identity) : List Identity :=
  xs.foldl (fun seen i => if seen.any (·.same i) then seen else seen ++ [i]) []

/-- A dependency between two objects: the source cannot exist before the
target. -/
structure Edge where
  source : Identity
  target : Identity
  edgeClass : EdgeClass
deriving DecidableEq, Inhabited

namespace Edge

def sortKey (e : Edge) : (String × String) × (String × String) :=
  (e.source.sortKey, e.target.sortKey)

def text (e : Edge) : String :=
  s!"{e.source.text} -> {e.target.text} ({e.edgeClass.name})"

def same (a b : Edge) : Bool :=
  a.source.same b.source && a.target.same b.target && a.edgeClass == b.edgeClass

def joins (e : Edge) (source target : Identity) : Bool :=
  e.source.same source && e.target.same target

end Edge

def edgeKeyLe : (String × String) × (String × String) → (String × String) × (String × String) → Bool :=
  lexLe (fun a b => sortKeyLe a b && a != b) sortKeyLe

def sortEdges (es : List Edge) : List Edge :=
  sortOn edgeKeyLe Edge.sortKey es

end CatalogPlan
