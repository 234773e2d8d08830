import CatalogPlan.Text.WordRanges
import CatalogPlan.Text.PrintableRanges
import CatalogPlan.Text.CaseRanges
import CatalogPlan.Text.DigitZeros

/-!
# Character classes

Each class is decided by a formula on ASCII and by a table of ranges beyond.
-/

namespace CatalogPlan.Text

def inRanges (ranges : List (Nat × Nat)) (c : Char) : Bool :=
  ranges.any fun (first, last) => first ≤ c.toNat && c.toNat ≤ last

def isAsciiLetter (c : Char) : Bool :=
  ('a' ≤ c && c ≤ 'z') || ('A' ≤ c && c ≤ 'Z')

def isAsciiDigit (c : Char) : Bool :=
  '0' ≤ c && c ≤ '9'

/-- Letters, digits and other numeric characters, and the underscore. -/
def isWord (c : Char) : Bool :=
  if c.toNat < 128 then isAsciiLetter c || isAsciiDigit c || c == '_' else inRanges wordRanges c

def digitValue? (c : Char) : Option Nat :=
  if c.toNat < 128 then
    if isAsciiDigit c then some (c.toNat - 48) else none
  else
    (digitZeros.find? fun first => first ≤ c.toNat && c.toNat ≤ first + 9).map (c.toNat - ·)

def isDigit (c : Char) : Bool :=
  (digitValue? c).isSome

def isPrintable (c : Char) : Bool :=
  if c.toNat < 128 then ' ' ≤ c && c ≤ '~' else inRanges printableRanges c

def isCased (c : Char) : Bool :=
  if c.toNat < 128 then isAsciiLetter c else inRanges casedRanges c

def isCaseIgnorable (c : Char) : Bool :=
  if c.toNat < 128 then [0x27, 0x2e, 0x3a, 0x5e, 0x60].contains c.toNat else inRanges caseIgnorableRanges c

end CatalogPlan.Text
