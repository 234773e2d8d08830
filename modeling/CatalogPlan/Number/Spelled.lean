import CatalogPlan.Number.Shortest

/-!
# Floats as text

A float is written with its shortest digits: positionally when the leading
digit stands between the fourth decimal place and the sixteenth digit before
the point, and with an exponent of at least two digits otherwise. A positional
number always keeps a decimal place.
-/

namespace CatalogPlan.Binary64

def dropZeros (ds : List Char) : List Char × Nat :=
  let zeros := (ds.reverse.takeWhile (· == '0')).length
  (ds.take (ds.length - zeros), zeros)

def positional (ds : List Char) (top : Int) : List Char :=
  if top < 0 then
    ['0', '.'] ++ List.replicate (-top - 1).toNat '0' ++ ds
  else
    let whole := top.toNat + 1
    let fraction := ds.drop whole
    ds.take whole ++ List.replicate (whole - ds.length) '0' ++ ['.'] ++
      (if fraction.isEmpty then ['0'] else fraction)

def scientific (ds : List Char) (top : Int) : List Char :=
  let mantissa := match ds with
    | [d] => [d]
    | d :: rest => d :: '.' :: rest
    | [] => []
  let exponent := (toString top.natAbs).toList
  mantissa ++ ['e', if top < 0 then '-' else '+'] ++
    List.replicate (2 - exponent.length) '0' ++ exponent

structure SpecialNames where
  infinity : String
  nan : String

def spell (names : SpecialNames) : Binary64 → String
  | .nan _ => names.nan
  | .infinite neg => (if neg then "-" else "") ++ names.infinity
  | .finite neg m q =>
    let body :=
      if m = 0 then ['0', '.', '0'] else
        let (digits, e) := shortest m q
        let (ds, zeros) := dropZeros (toString digits).toList
        let top : Int := e + zeros + ds.length - 1
        if -4 ≤ top ∧ top < 16 then positional ds top else scientific ds top
    (if neg then "-" else "") ++ String.ofList body

end CatalogPlan.Binary64
