/-!
# Capitals

Upper case as far as it is ASCII, which is what the words of a language with
ASCII keywords are compared in.
-/

namespace CatalogPlan.Text

def capital (c : Char) : Char :=
  if 'a' ≤ c ∧ c ≤ 'z' then Char.ofNat (c.toNat - 32) else c

def asciiCapitals : List (Nat × List Char) :=
  [(0xdf, ['S', 'S']), (0x131, ['I']), (0x17f, ['S']), (0xfb00, ['F', 'F']), (0xfb01, ['F', 'I']),
   (0xfb02, ['F', 'L']), (0xfb03, ['F', 'F', 'I']), (0xfb04, ['F', 'F', 'L']), (0xfb05, ['S', 'T']),
   (0xfb06, ['S', 'T'])]

/-- Upper case of a text; characters whose capitals are outside ASCII stay. -/
def capitals (s : String) : String :=
  String.ofList (s.toList.flatMap fun c =>
    if c.toNat < 128 then [capital c] else (asciiCapitals.lookup c.toNat).getD [c])

/-- The ASCII capital that a character is the same letter as when case is
ignored. The dotted and the dotless i, the long s and the Kelvin sign count. -/
def foldLetter (c : Char) : Char :=
  if c.toNat = 0x130 ∨ c.toNat = 0x131 then 'I'
  else if c.toNat = 0x17f then 'S'
  else if c.toNat = 0x212a then 'K'
  else capital c

end CatalogPlan.Text
