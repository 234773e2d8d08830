import CatalogPlan.Text.Blank
import CatalogPlan.Text.Ranges

/-!
# Integers written as text

A numeral is an optional sign and decimal digits of any script, where one
underscore may stand between two digits. Blanks may surround it, the
information separators excepted. A numeral of more than 4300 digits is refused.
-/

namespace CatalogPlan.Numeral

/-- The digits of a numeral, most significant first. `afterDigit` tells whether
an underscore may follow. -/
def digits? (afterDigit : Bool) : List Char → Option (List Nat)
  | [] => if afterDigit then some [] else none
  | c :: rest =>
    if c = '_' then
      if afterDigit && (rest.head?.map Text.isDigit).getD false then digits? false rest else none
    else
      (Text.digitValue? c).bind fun d => (digits? true rest).map (d :: ·)

def ofDigits (ds : List Nat) : Nat :=
  ds.foldl (fun n d => 10 * n + d) 0

def maxDigits : Nat := 4300

def natural? (cs : List Char) : Option Nat :=
  (digits? false cs).bind fun ds => if ds.length ≤ maxDigits then some (ofDigits ds) else none

def isPadding (c : Char) : Bool :=
  Text.isBlank c && !(28 ≤ c.toNat && c.toNat ≤ 31)

def integer? (s : String) : Option Int :=
  match ((s.toList.dropWhile isPadding).reverse.dropWhile isPadding).reverse with
  | '-' :: cs => (natural? cs).map fun n => -(n : Int)
  | '+' :: cs => (natural? cs).map Int.ofNat
  | cs => (natural? cs).map Int.ofNat

end CatalogPlan.Numeral
