import CatalogPlan.Text.Blank
import CatalogPlan.Text.Lower
import CatalogPlan.Value.Spelling

/-!
# Dotted SQL names

A dotted name is split into parts. Outside quotes a part is folded to lower
case and loses its blanks; inside quotes it is kept, with a doubled quote for a
quote. A part that needs no quotes is written without.
-/

namespace CatalogPlan

inductive NameFault where
  | unterminatedQuote (text : String)
  | emptyPart (text : String)
  | unbalancedArguments (text : String)
  | argumentsNotLast
deriving DecidableEq, Inhabited

def NameFault.message : NameFault → String
  | .unterminatedQuote text => s!"unterminated quoted identifier in {Text.spelled text}"
  | .emptyPart text => s!"empty name part in {Text.spelled text}"
  | .unbalancedArguments text => s!"unbalanced argument list in {Text.spelled text}"
  | .argumentsNotLast => "argument list must come last"

namespace Name

/-- Where a scan stands with respect to quotes: `leaving` is right after a quote
that closes the quoted text unless another quote follows. -/
inductive Quoting where
  | outside
  | inside
  | leaving
deriving DecidableEq, Inhabited

/-- The parts of a dotted name: the rest of the part at hand, and the parts
after it. A quote left open at the end is refused. -/
def parts : Quoting → List Char → Option (List Char × List (List Char))
  | q, [] => if q = .inside then none else some ([], [])
  | .inside, c :: rest =>
    if c = Text.doubleQuote then parts .leaving rest
    else (parts .inside rest).map fun (part, later) => (c :: part, later)
  | q, c :: rest =>
    if c = Text.doubleQuote then
      if q = .leaving then (parts .inside rest).map fun (part, later) => (c :: part, later)
      else parts .inside rest
    else if c = '.' then (parts .outside rest).map fun (part, later) => ([], part :: later)
    else if Text.isBlank c then parts .outside rest
    else (parts .outside rest).map fun (part, later) => (Text.lowerChar c ++ part, later)

def split (text : String) : Except NameFault (List String) :=
  match parts .outside text.toList with
  | none => .error (.unterminatedQuote text)
  | some (part, later) =>
    if (part :: later).any List.isEmpty then .error (.emptyPart text)
    else .ok ((part :: later).map String.ofList)

def isPlainStart (c : Char) : Bool :=
  ('a' ≤ c && c ≤ 'z') || c == '_'

def isPlainChar (c : Char) : Bool :=
  isPlainStart c || ('0' ≤ c && c ≤ '9') || c == '$'

/-- Plain characters, with one line end allowed at the very end. -/
def isPlainTail : List Char → Bool
  | [] => true
  | ['\n'] => true
  | c :: rest => isPlainChar c && isPlainTail rest

def isPlain : List Char → Bool
  | [] => false
  | c :: rest => isPlainStart c && isPlainTail rest

def doubleQuotes (cs : List Char) : List Char :=
  cs.flatMap fun c => if c = Text.doubleQuote then [c, c] else [c]

def quote (part : String) : String :=
  if isPlain part.toList then part
  else String.ofList (Text.doubleQuote :: doubleQuotes part.toList ++ [Text.doubleQuote])

def join (parts : List String) : String :=
  ".".intercalate (parts.map quote)

end Name

end CatalogPlan
