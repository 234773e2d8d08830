import CatalogPlan.Ini.Document

/-!
# References between options

In a value, `%(name)s` stands for the value of another option, and `%%` for a
percent sign. References may be nested ten deep.
-/

namespace CatalogPlan.Ini

inductive ExpansionFault where
  /-- A percent sign starts neither a reference nor another percent sign. -/
  | badReference
  | unknownOption
  | tooDeep
deriving DecidableEq, Inhabited

/-- Where the scan of a value stands: in plain text, after a percent sign, in
the name of a reference, or after the name. -/
inductive Scan where
  | text
  | percent
  | name (read : List Char)
  | named (read : List Char)
deriving DecidableEq, Inhabited

/-- The value of an option that is referred to; `nested` expands it when it has
references of its own. -/
def resolve (nested : List Char → Except ExpansionFault (List Char))
    (look : String → Option String) (name : List Char) : Except ExpansionFault (List Char) :=
  match look (Text.lower (String.ofList name)) with
  | none => .error .unknownOption
  | some v => if v.toList.contains '%' then nested v.toList else .ok v.toList

def expandWith (nested : List Char → Except ExpansionFault (List Char))
    (look : String → Option String) : Scan → List Char → Except ExpansionFault (List Char)
  | .text, [] => .ok []
  | _, [] => .error .badReference
  | .text, c :: rest =>
    if c = '%' then expandWith nested look .percent rest
    else do return c :: (← expandWith nested look .text rest)
  | .percent, c :: rest =>
    if c = '%' then do return c :: (← expandWith nested look .text rest)
    else if c = '(' then expandWith nested look (.name []) rest
    else .error .badReference
  | .name read, c :: rest =>
    if c ≠ ')' then expandWith nested look (.name (read ++ [c])) rest
    else if read = [] then .error .badReference
    else expandWith nested look (.named read) rest
  | .named read, c :: rest =>
    if c = 's' then do
      let v ← resolve nested look read
      return v ++ (← expandWith nested look .text rest)
    else .error .badReference

def expand (look : String → Option String) :
    (depth : Nat) → List Char → Except ExpansionFault (List Char)
  | 0, _ => .error .tooDeep
  | depth + 1, cs => expandWith (expand look depth) look .text cs

def maxDepth : Nat := 10

namespace Document

def expanded? (d : Document) (own : Options) (option : String) :
    Except ExpansionFault (Option String) :=
  match d.value? own option with
  | none => .ok none
  | some v => do
    return some (String.ofList (← expand (d.value? own) maxDepth v.toList))

end Document

end CatalogPlan.Ini
