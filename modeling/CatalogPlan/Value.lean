import CatalogPlan.Number.Binary64

/-!
# Dynamic values

Catalog readers hand over records and payloads as nested values. An object
keeps its fields in order and has each name once.
-/

namespace CatalogPlan

inductive Value where
  | null
  | bool (b : Bool)
  | int (n : Int)
  | float (x : Binary64)
  | text (s : String)
  | list (items : List Value)
  | object (fields : List (String × Value))
deriving Inhabited

abbrev Fields := List (String × Value)

namespace Fields

def get? (fields : Fields) (name : String) : Option Value :=
  fields.lookup name

def get (fields : Fields) (name : String) : Value :=
  (fields.get? name).getD .null

/-- Sets a field: a known name keeps its place, a new one goes last. -/
def insert : Fields → String → Value → Fields
  | [], name, value => [(name, value)]
  | (key, old) :: rest, name, value =>
    if key = name then (key, value) :: rest else (key, old) :: insert rest name value

end Fields

namespace Value

def isTruthy : Value → Bool
  | .null => false
  | .bool b => b
  | .int n => n != 0
  | .float x => !x.isZero
  | .text s => s != ""
  | .list items => !items.isEmpty
  | .object fields => !fields.isEmpty

def orElse (v default : Value) : Value :=
  if v.isTruthy then v else default

def number? : Value → Option (Int ⊕ Binary64)
  | .bool b => some (.inl (if b then 1 else 0))
  | .int n => some (.inl n)
  | .float x => some (.inr x)
  | _ => none

def sameNumber : Int ⊕ Binary64 → Int ⊕ Binary64 → Bool
  | .inl a, .inl b => a == b
  | .inl a, .inr y => y.eqInt a
  | .inr x, .inl b => x.eqInt b
  | .inr x, .inr y => x.eqFloat y

mutual

/-- Equality of payloads: numbers by their value, objects whatever the order of
their fields. A payload is a container, so a `nan` in it is equal to itself. -/
def same : Value → Value → Bool
  | .null, .null => true
  | .text s, .text t => s == t
  | .list as, .list bs => sameItems as bs
  | .object as, .object bs => as.length == bs.length && sameFields as bs
  | .bool a, b => ((Value.bool a).number?.bind fun x => b.number?.map (sameNumber x)).getD false
  | .int a, b => ((Value.int a).number?.bind fun x => b.number?.map (sameNumber x)).getD false
  | .float a, b => ((Value.float a).number?.bind fun x => b.number?.map (sameNumber x)).getD false
  | _, _ => false

def sameItems : List Value → List Value → Bool
  | [], [] => true
  | a :: as, b :: bs => same a b && sameItems as bs
  | _, _ => false

/-- Whether the second object has every field of the first with the same value. -/
def sameFields : Fields → Fields → Bool
  | [], _ => true
  | (name, a) :: as, bs =>
    (match Fields.get? bs name with
      | some b => same a b
      | none => false) && sameFields as bs

end

end Value

end CatalogPlan
