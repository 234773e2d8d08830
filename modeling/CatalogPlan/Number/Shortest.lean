import CatalogPlan.Number.Binary64

/-!
# The shortest decimal of a float

The fewest significant digits that read back as the same float, and of those
the decimal nearest to it. The number is compared with decimals exactly, in
natural numbers.
-/

namespace CatalogPlan.Binary64

/-- The sign of `a * 10 ^ e - b * 2 ^ q`. -/
def compareDecimal (a : Nat) (e : Int) (b : Nat) (q : Int) : Ordering :=
  compare (a * tens e.toNat * twos (-q).toNat) (b * twos q.toNat * tens (-e).toNat)

/-- Whether `a * 10 ^ e` rounds to the float `m * 2 ^ q`. The interval of such
numbers reaches half way to both neighbours, its ends belong to it for an even
`m`, and the lower neighbour of a power of two is nearer. -/
def readsBack (m : Nat) (q : Int) (a : Nat) (e : Int) : Bool :=
  let below := if m = twos 52 ∧ -1074 < q then 4 * m - 1 else 4 * m - 2
  let low := compareDecimal a e below (q - 2)
  let high := compareDecimal a e (4 * m + 2) (q - 2)
  (low == .gt || (low == .eq && m % 2 == 0)) && (high == .lt || (high == .eq && m % 2 == 0))

def leadingExponent (m : Nat) (q : Int) : Nat → Int → Int
  | 0, e => e
  | fuel + 1, e => if compareDecimal 1 e m q == .gt then leadingExponent m q fuel (e - 1) else e

def nearest? (m : Nat) (q : Int) (top : Int) (count : Nat) : Option (Nat × Int) :=
  let e := top - count + 1
  let a := m * twos q.toNat * tens (-e).toNat / (twos (-q).toNat * tens e.toNat)
  match readsBack m q a e, readsBack m q (a + 1) e with
  | true, true =>
    -- The value lies between the two, so the half way point decides.
    if compareDecimal (2 * a + 1) e (2 * m) q == .lt then some (a + 1, e) else some (a, e)
  | true, false => some (a, e)
  | false, true => some (a + 1, e)
  | false, false => none

/-- The significant digits and the exponent of the last of them. Seventeen
digits always read back. -/
def shortest (m : Nat) (q : Int) : Nat × Int :=
  let top := leadingExponent m q 640 309
  ((List.range 17).findSome? fun k => nearest? m q top (k + 1)).getD (m, q)

end CatalogPlan.Binary64
