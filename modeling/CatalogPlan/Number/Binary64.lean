/-!
# Binary floating point, exactly

A `Binary64` is the number that a 64-bit float stands for, as a significand and
a power of two, so that rounding, comparison and truncation are arithmetic on
natural numbers.
-/

namespace CatalogPlan

/-- `finite neg m q` is `± m * 2 ^ q` with `m < 2 ^ 53` and `-1074 ≤ q`, where
`m < 2 ^ 52` only for `q = -1074`. A `nan` carries which object it is, for a container
finds it equal to itself. -/
inductive Binary64 where
  | finite (neg : Bool) (m : Nat) (q : Int)
  | infinite (neg : Bool)
  | nan (object : Nat)
deriving DecidableEq, Inhabited

namespace Binary64

def twos (n : Nat) : Nat :=
  Nat.pow 2 n

def tens (n : Nat) : Nat :=
  Nat.pow 10 n

/-- `num / den` to the nearest integer, a tie to the even one. -/
def roundDiv (num den : Nat) : Nat :=
  let m := num / den
  let r := num % den
  if 2 * r < den then m else if den < 2 * r then m + 1 else m + m % 2

def scale (num den : Nat) (q : Int) : Nat × Nat :=
  (num * twos (-q).toNat, den * twos q.toNat)

/-- The float nearest to `num / den`, a tie to the even significand. -/
def ofRatio (neg : Bool) (num den : Nat) : Binary64 :=
  if num = 0 then .finite neg 0 (-1074) else
    let lg : Int := (Nat.log2 num : Int) - Nat.log2 den
    let small := max (-1074) (lg - 53)
    let q := if (scale num den small).1 / (scale num den small).2 < twos 53 then small else small + 1
    let (n, d) := scale num den q
    let m := roundDiv n d
    let (m, q) := if m = twos 53 then (twos 52, q + 1) else (m, q)
    if 971 < q then .infinite neg else .finite neg m q

def ofDecimal (neg : Bool) (digits : Nat) (exponent : Int) : Binary64 :=
  let size : Int := Nat.log2 digits
  if digits = 0 ∨ exponent * 3 + size < -1080 then .finite neg 0 (-1074)
  else if 1030 < exponent * 3 ∧ 0 < exponent then .infinite neg
  else ofRatio neg (digits * tens exponent.toNat) (tens (-exponent).toNat)

def isZero : Binary64 → Bool
  | .finite _ m _ => m == 0
  | _ => false

def truncate? : Binary64 → Option Int
  | .finite neg m q =>
    let n : Int := m * twos q.toNat / twos (-q).toNat
    some (if neg then -n else n)
  | _ => none

def eqInt : Binary64 → Int → Bool
  | .finite neg m q, n => m * twos q.toNat == n.natAbs * twos (-q).toNat && (m == 0 || neg == decide (n < 0))
  | _, _ => false

/-- Equality of numbers inside a container: the zeros are equal, and a `nan` equals the
object that it is and no other. -/
def eqFloat (x y : Binary64) : Bool :=
  x == y || (x.isZero && y.isZero)

end Binary64

end CatalogPlan
