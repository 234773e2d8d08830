import CatalogPlan.Name.Identifier

/-!
# Canonical names

A name may end in the argument list of a routine. The canonical form joins the
parts of one or more names and puts the normalised arguments after them.
-/

namespace CatalogPlan.Name

/-- The characters before the first opening parenthesis outside quotes, and
those after it. -/
def cut (quoted : Bool) : List Char → Option (List Char × List Char)
  | [] => none
  | c :: rest =>
    if c = '(' ∧ ¬quoted then some ([], rest)
    else (cut (quoted ^^ c == Text.doubleQuote) rest).map fun (before, after) => (c :: before, after)

def splitSignature (text : String) : Except NameFault (String × Option String) :=
  match cut false text.toList with
  | none => .ok (text, none)
  | some (before, after) =>
    if after.getLast? = some ')' then
      .ok (String.ofList before, some (String.ofList after.dropLast))
    else .error (.unbalancedArguments text)

def collapse : List Char → List Char
  | [] => []
  | c :: rest =>
    if Text.isBlank c then
      match rest with
      | [] => [' ']
      | d :: _ => if Text.isBlank d then collapse rest else ' ' :: collapse rest
    else c :: collapse rest

def pieces : List Char → List (List Char)
  | [] => [[]]
  | c :: rest =>
    if c = ',' then [] :: pieces rest
    else match pieces rest with
      | piece :: later => (c :: piece) :: later
      | [] => [[c]]

/-- An argument list with one blank after each comma and none before, no blanks
at the ends, single blanks elsewhere, and in lower case. -/
def normalizeArguments (arguments : String) : String :=
  let tidy := (pieces arguments.toList).map fun piece => collapse (Text.trim piece)
  String.ofList (Text.lowerAfter [] ([',', ' '].intercalate tidy))

/-- The parts and the argument list of a sequence of names, of which only the
last may have arguments. -/
def read : List String → Except NameFault (List String × Option String)
  | [] => .ok ([], none)
  | name :: rest => do
    let (base, arguments) ← splitSignature (Text.strip name)
    let parts ← split base
    if arguments.isSome && !rest.isEmpty then throw .argumentsNotLast
    let (later, last) ← read rest
    return (parts ++ later, if rest.isEmpty then arguments else last)

def write (parts : List String) (arguments : Option String) : String :=
  match arguments with
  | none => join parts
  | some args => join parts ++ "(" ++ normalizeArguments args ++ ")"

def normalize (names : List String) : Except NameFault String := do
  let (parts, arguments) ← read names
  return write parts arguments

end CatalogPlan.Name
