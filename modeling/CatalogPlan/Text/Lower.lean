import CatalogPlan.Text.LowerRuns
import CatalogPlan.Text.Ranges

/-!
# Lower case

The full Unicode mapping to lower case. One character (U+0130) becomes two. In
a whole text the capital sigma takes its final form after a letter when no
letter follows; a character on its own never does.
-/

namespace CatalogPlan.Text

def lowerChar (c : Char) : List Char :=
  if c.toNat < 128 then
    [if 'A' ≤ c ∧ c ≤ 'Z' then Char.ofNat (c.toNat + 32) else c]
  else if c.toNat = 0x130 then
    ['i', Char.ofNat 0x307]
  else
    [((lowerRuns.findSome? (·.image? c.toNat)).map Char.ofNat).getD c]

/-- Whether the nearest character that is not stepped over has a case. -/
def meetsCased (cs : List Char) : Bool :=
  match cs.dropWhile isCaseIgnorable with
  | c :: _ => isCased c
  | [] => false

/-- Lower case of a text whose characters before it are given backwards. -/
def lowerAfter (before : List Char) : List Char → List Char
  | [] => []
  | c :: rest =>
    (if c.toNat = 0x3a3 then
      [Char.ofNat (if meetsCased before && !meetsCased rest then 0x3c2 else 0x3c3)]
    else lowerChar c) ++ lowerAfter (c :: before) rest

def lower (s : String) : String :=
  String.ofList (lowerAfter [] s.toList)

end CatalogPlan.Text
