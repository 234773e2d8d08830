import CatalogPlan.Value
import CatalogPlan.Number.Spelled
import CatalogPlan.Text.Quotes
import CatalogPlan.Text.Ranges

/-!
# Values spelled out in messages

Messages quote the value they are about. A text stands in single quotes, or in
double quotes when it holds a single quote and no double one; what cannot be
printed is written as an escape.
-/

namespace CatalogPlan.Value

structure Spelling where
  null : String
  yes : String
  no : String
  floats : Binary64.SpecialNames

def inMessages : Spelling := ⟨"None", "True", "False", ⟨"inf", "nan"⟩⟩

end CatalogPlan.Value

namespace CatalogPlan.Text

def hexDigit (n : Nat) : Char :=
  if n < 10 then Char.ofNat (48 + n) else Char.ofNat (87 + n)

def hex : (width : Nat) → Nat → List Char
  | 0, _ => []
  | width + 1, n => hex width (n / 16) ++ [hexDigit (n % 16)]

def spellChar (quote : Char) (c : Char) : List Char :=
  if c = quote ∨ c = '\\' then ['\\', c]
  else if c = '\n' then ['\\', 'n']
  else if c = '\r' then ['\\', 'r']
  else if c = '\t' then ['\\', 't']
  else if isPrintable c then [c]
  else if c.toNat < 0x100 then ['\\', 'x'] ++ hex 2 c.toNat
  else if c.toNat < 0x10000 then ['\\', 'u'] ++ hex 4 c.toNat
  else ['\\', 'U'] ++ hex 8 c.toNat

def quoteFor (cs : List Char) : Char :=
  if cs.contains singleQuote && !cs.contains doubleQuote then doubleQuote else singleQuote

def spelled (s : String) : String :=
  let quote := quoteFor s.toList
  String.ofList (quote :: s.toList.flatMap (spellChar quote) ++ [quote])

end CatalogPlan.Text

namespace CatalogPlan.Value

mutual

def spell : Value → String
  | .null => inMessages.null
  | .bool b => if b then inMessages.yes else inMessages.no
  | .int n => toString n
  | .float x => x.spell inMessages.floats
  | .text s => Text.spelled s
  | .list items => "[" ++ ", ".intercalate (spellItems items) ++ "]"
  | .object fields => "\x7b" ++ ", ".intercalate (spellFields fields) ++ "\x7d"

def spellItems : List Value → List String
  | [] => []
  | v :: rest => spell v :: spellItems rest

def spellFields : Fields → List String
  | [] => []
  | (name, v) :: rest => (Text.spelled name ++ ": " ++ spell v) :: spellFields rest

end

end CatalogPlan.Value
