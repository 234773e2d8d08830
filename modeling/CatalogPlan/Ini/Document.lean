import CatalogPlan.Text.Blank
import CatalogPlan.Text.Lower

/-!
# Ini documents

An ini text has sections of options. A line that is indented more than the
option before it continues the value of that option; a line that starts with
`#` or `;` is a comment. Section names are kept as written, option names are
folded to lower case, and neither may be repeated.
-/

namespace CatalogPlan.Ini

inductive Fault where
  | headless
  /-- A line is neither a section header nor an option, or its option has no
  name. -/
  | unreadable
  | duplicateSection
  | duplicateOption
deriving DecidableEq, Inhabited

abbrev Options := List (String × String)

structure Document where
  sections : List (String × Options)
deriving Inhabited

namespace Document

def sharedName : String := "DEFAULT"

def shared (d : Document) : Options :=
  (d.sections.lookup sharedName).getD []

def section? (d : Document) (name : String) : Option Options :=
  if name = sharedName then none else d.sections.lookup name

def value? (d : Document) (own : Options) (option : String) : Option String :=
  (own.lookup option).or (d.shared.lookup option)

end Document

/-! ## Lines -/

/-- The lines of a text. A line feed, a carriage return, or the two in a row end
a line. -/
def lines : List Char → List (List Char)
  | [] => [[]]
  | '\r' :: '\n' :: rest => [] :: lines rest
  | c :: rest =>
    if c = '\n' ∨ c = '\r' then [] :: lines rest
    else match lines rest with
      | line :: later => (c :: line) :: later
      | [] => [[c]]

def isComment (text : List Char) : Bool :=
  text.head? == some '#' || text.head? == some ';'

def beforeLast? (mark : Char) : List Char → Option (List Char)
  | [] => none
  | c :: rest =>
    match beforeLast? mark rest with
    | some before => some (c :: before)
    | none => if c = mark then some [] else none

/-- The name in a section header. What follows the last bracket is passed
over. -/
def header? : List Char → Option String
  | '[' :: rest =>
    match beforeLast? ']' rest with
    | some (c :: name) => some (String.ofList (c :: name))
    | _ => none
  | _ => none

def isDelimiter (c : Char) : Bool :=
  c == '=' || c == ':'

def option? (text : List Char) : Option (String × List Char) :=
  match text.dropWhile fun c => !isDelimiter c with
  | [] => none
  | _ :: value =>
    let name := Text.trimEnd (text.takeWhile fun c => !isDelimiter c)
    some (Text.lower (String.ofList name), Text.trim value)

/-! ## Reading -/

abbrev RawOptions := List (String × List (List Char))

/-- How far a text is read: the sections so far, the current section, the option
that a continuation line would extend, the indentation that it must exceed, and
whether a line was unreadable. -/
structure Reading where
  sections : List (String × RawOptions)
  current : Option String
  open? : Option String
  indent : Nat
  flawed : Bool
deriving Inhabited

namespace Reading

def start : Reading := ⟨[], none, none, 0, false⟩

def change (name : String) (f : α → α) (table : List (String × α)) : List (String × α) :=
  table.map fun (known, v) => if known = name then (known, f v) else (known, v)

def options (r : Reading) : RawOptions :=
  (r.current.bind fun name => r.sections.lookup name).getD []

def continueWith (r : Reading) (line : List Char) : Reading :=
  match r.current, r.open? with
  | some s, some o => { r with sections := change s (change o (· ++ [line])) r.sections }
  | _, _ => r

/-- Starts a section. The shared one may be started again. -/
def openSection (r : Reading) (name : String) : Except Fault Reading :=
  if r.sections.any (·.1 == name) then
    if name = Document.sharedName then .ok { r with current := some name, open? := none }
    else .error .duplicateSection
  else
    .ok { r with sections := r.sections ++ [(name, [])], current := some name, open? := none }

def addOption (r : Reading) (name : String) (value : List Char) : Except Fault Reading :=
  match r.current with
  | none => .error .headless
  | some s =>
    if r.options.any (·.1 == name) then .error .duplicateOption
    else
      let nameless := name == ""
      .ok { r with
        sections := change s (· ++ [(name, [value])]) r.sections
        open? := if nameless then none else some name
        flawed := r.flawed || nameless }

def readEntry (r : Reading) (text : List Char) : Except Fault Reading :=
  match header? text with
  | some name => r.openSection name
  | none =>
    if r.current.isNone then .error .headless else
      match option? text with
      | some (name, value) => r.addOption name value
      | none => .ok { r with flawed := true }

def readLine (r : Reading) (line : List Char) : Except Fault Reading :=
  let text := Text.trim line
  if text.isEmpty then .ok (r.continueWith [])
  else if isComment text then .ok r
  else
    let indent := (line.takeWhile Text.isBlank).length
    if r.open?.isSome && r.indent < indent then .ok (r.continueWith text)
    else readEntry { r with indent := indent } text

def joined (value : List (List Char)) : String :=
  String.ofList (Text.trimEnd (['\n'].intercalate value))

def finish (r : Reading) : Except Fault Document :=
  if r.flawed then .error .unreadable
  else .ok ⟨r.sections.map fun (name, options) =>
    (name, options.map fun (option, value) => (option, joined value))⟩

end Reading

/-- Reads an ini text. Unreadable lines are refused only when the rest of the
text has been read. -/
def read (text : String) : Except Fault Document := do
  let r ← (lines text.toList).foldlM Reading.readLine Reading.start
  r.finish

end CatalogPlan.Ini
