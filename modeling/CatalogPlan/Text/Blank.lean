/-!
# Blank characters

White space in the wide sense: the Unicode white space characters and the four
information separators U+001C to U+001F. U+200B, which has no width, is not
blank.
-/

namespace CatalogPlan.Text

def isBlank (c : Char) : Bool :=
  let n := c.toNat
  (9 ≤ n && n ≤ 13) || (28 ≤ n && n ≤ 32) || n == 0x85 || n == 0xa0 || n == 0x1680 ||
    (0x2000 ≤ n && n ≤ 0x200a) || n == 0x2028 || n == 0x2029 || n == 0x202f ||
    n == 0x205f || n == 0x3000

def trimEnd (cs : List Char) : List Char :=
  (cs.reverse.dropWhile isBlank).reverse

def trim (cs : List Char) : List Char :=
  trimEnd (cs.dropWhile isBlank)

def strip (s : String) : String :=
  String.ofList (trim s.toList)

end CatalogPlan.Text
