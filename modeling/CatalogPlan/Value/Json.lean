import CatalogPlan.Value
import CatalogPlan.Value.Spelling

/-!
# Values as JSON

Reading keeps the distinction between integers and floats: a numeral with a
fraction or an exponent is a float. A repeated name keeps its first place and
its last value. Writing uses ASCII alone.
-/

namespace CatalogPlan.Json

/-! ## Writing -/

def escapeUnit (n : Nat) : List Char :=
  ['\\', 'u'] ++ Text.hex 4 n

/-- A character inside a string: what is outside printable ASCII becomes its
UTF-16 units. -/
def escapeChar (c : Char) : List Char :=
  if c = Text.doubleQuote ∨ c = '\\' then ['\\', c]
  else if c = '\n' then ['\\', 'n']
  else if c = '\r' then ['\\', 'r']
  else if c = '\t' then ['\\', 't']
  else if c.toNat = 8 then ['\\', 'b']
  else if c.toNat = 12 then ['\\', 'f']
  else if ' ' ≤ c ∧ c ≤ '~' then [c]
  else if c.toNat < 0x10000 then escapeUnit c.toNat
  else
    let n := c.toNat - 0x10000
    escapeUnit (0xd800 + n / 0x400) ++ escapeUnit (0xdc00 + n % 0x400)

def string (s : String) : String :=
  String.ofList (Text.doubleQuote :: s.toList.flatMap escapeChar ++ [Text.doubleQuote])

def floatNames : Binary64.SpecialNames := ⟨"Infinity", "NaN"⟩

mutual

def render : Value → String
  | .null => "null"
  | .bool b => if b then "true" else "false"
  | .int n => toString n
  | .float x => x.spell floatNames
  | .text s => string s
  | .list items => "[" ++ ", ".intercalate (renderItems items) ++ "]"
  | .object fields => "\x7b" ++ ", ".intercalate (renderFields fields) ++ "\x7d"

def renderItems : List Value → List String
  | [] => []
  | v :: rest => render v :: renderItems rest

def renderFields : Fields → List String
  | [] => []
  | (name, v) :: rest => (string name ++ ": " ++ render v) :: renderFields rest

end

def newline (depth : Nat) : String :=
  String.ofList ('\n' :: List.replicate (2 * depth) ' ')

def block (opening closing : String) (depth : Nat) (items : List String) : String :=
  if items.isEmpty then opening ++ closing else
    opening ++ newline (depth + 1) ++ ("," ++ newline (depth + 1)).intercalate items ++
      newline depth ++ closing

mutual

def pretty (depth : Nat) : Value → String
  | .list items => block "[" "]" depth (prettyItems (depth + 1) items)
  | .object fields => block "\x7b" "\x7d" depth (prettyFields (depth + 1) fields)
  | .null => "null"
  | .bool b => if b then "true" else "false"
  | .int n => toString n
  | .float x => x.spell floatNames
  | .text s => string s

def prettyItems (depth : Nat) : List Value → List String
  | [] => []
  | v :: rest => pretty depth v :: prettyItems depth rest

def prettyFields (depth : Nat) : Fields → List String
  | [] => []
  | (name, v) :: rest => (string name ++ ": " ++ pretty depth v) :: prettyFields depth rest

end

/-! ## Reading -/

def isSpace (c : Char) : Bool :=
  c == ' ' || c == '\n' || c == '\r' || c == '\t'

def skipSpace (cs : List Char) : List Char :=
  cs.dropWhile isSpace

def hexValue? (c : Char) : Option Nat :=
  if '0' ≤ c ∧ c ≤ '9' then some (c.toNat - 48)
  else if 'a' ≤ c ∧ c ≤ 'f' then some (c.toNat - 87)
  else if 'A' ≤ c ∧ c ≤ 'F' then some (c.toNat - 55)
  else none

def readUnit : List Char → Option (Nat × List Char)
  | a :: b :: c :: d :: rest => do
    let a ← hexValue? a
    let b ← hexValue? b
    let c ← hexValue? c
    let d ← hexValue? d
    return (((a * 16 + b) * 16 + c) * 16 + d, rest)
  | _ => none

def unescape? : Char → Option Char
  | 'n' => some '\n'
  | 'r' => some '\r'
  | 't' => some '\t'
  | 'b' => some (Char.ofNat 8)
  | 'f' => some (Char.ofNat 12)
  | '/' => some '/'
  | '\\' => some '\\'
  | c => if c = Text.doubleQuote then some c else none

/-- The character of an escape, after its `\u`. Two units of a surrogate pair
make one character; a lone one becomes U+FFFD. -/
def readEscape (cs : List Char) : Option (Char × List Char) := do
  let (high, rest) ← readUnit cs
  if 0xd800 ≤ high ∧ high < 0xdc00 then
    match rest with
    | '\\' :: 'u' :: more =>
      let (low, rest) ← readUnit more
      if 0xdc00 ≤ low ∧ low < 0xe000 then
        return (Char.ofNat (0x10000 + (high - 0xd800) * 0x400 + (low - 0xdc00)), rest)
      else return (Char.ofNat 0xfffd, '\\' :: 'u' :: more)
    | _ => return (Char.ofNat 0xfffd, rest)
  else if 0xdc00 ≤ high ∧ high < 0xe000 then return (Char.ofNat 0xfffd, rest)
  else return (Char.ofNat high, rest)

def readString : (fuel : Nat) → List Char → Option (List Char × List Char)
  | 0, _ => none
  | _, [] => none
  | fuel + 1, '\\' :: 'u' :: rest => do
    let (c, rest) ← readEscape rest
    let (cs, rest) ← readString fuel rest
    return (c :: cs, rest)
  | fuel + 1, '\\' :: c :: rest => do
    let c ← unescape? c
    let (cs, rest) ← readString fuel rest
    return (c :: cs, rest)
  | fuel + 1, c :: rest =>
    if c = Text.doubleQuote then some ([], rest) else do
      let (cs, rest) ← readString fuel rest
      return (c :: cs, rest)

def natOfDigits (cs : List Char) : Nat :=
  cs.foldl (fun n c => 10 * n + (c.toNat - 48)) 0

def readFraction : List Char → List Char × List Char
  | '.' :: rest => (rest.takeWhile Text.isAsciiDigit, rest.dropWhile Text.isAsciiDigit)
  | cs => ([], cs)

def readExponent : List Char → Option Int × List Char
  | c :: rest =>
    if c = 'e' ∨ c = 'E' then
      let (neg, rest) := match rest with
        | '-' :: more => (true, more)
        | '+' :: more => (false, more)
        | more => (false, more)
      let n : Int := natOfDigits (rest.takeWhile Text.isAsciiDigit)
      (some (if neg then -n else n), rest.dropWhile Text.isAsciiDigit)
    else (none, c :: rest)
  | [] => (none, [])

def readNumber (neg : Bool) (cs : List Char) : Option (Value × List Char) :=
  let whole := cs.takeWhile Text.isAsciiDigit
  if whole.isEmpty then none else
    let (fraction, rest) := readFraction (cs.dropWhile Text.isAsciiDigit)
    let (exponent, rest) := readExponent rest
    if fraction.isEmpty && exponent.isNone then
      let n : Int := natOfDigits whole
      some (.int (if neg then -n else n), rest)
    else
      let shift : Int := exponent.getD 0 - fraction.length
      some (.float (.ofDecimal neg (natOfDigits (whole ++ fraction)) shift), rest)

def words : List (List Char × Value) :=
  [("null".toList, .null), ("true".toList, .bool true), ("false".toList, .bool false),
   ("NaN".toList, .float (.nan 0)), ("Infinity".toList, .float (.infinite false)),
   ("-Infinity".toList, .float (.infinite true))]

def readWord (cs : List Char) : Option (Value × List Char) :=
  words.findSome? fun (word, v) =>
    if word.isPrefixOf cs then some (v, cs.drop word.length) else none

mutual

/-- A value at the start of a text. Every call consumes a character, so the
length of the text is fuel enough. -/
def readValue : (fuel : Nat) → List Char → Option (Value × List Char)
  | 0, _ => none
  | fuel + 1, cs =>
    match skipSpace cs with
    | [] => none
    | '[' :: rest =>
      match skipSpace rest with
      | ']' :: rest => some (.list [], rest)
      | rest => (readItems fuel rest).map fun (items, rest) => (.list items, rest)
    | c :: rest =>
      if c = Char.ofNat 0x7b then
        match skipSpace rest with
        | [] => none
        | d :: more =>
          if d = Char.ofNat 0x7d then some (.object [], more)
          else (readFields fuel [] (d :: more)).map fun (fields, rest) => (.object fields, rest)
      else if c = Text.doubleQuote then
        (readString (rest.length + 1) rest).map fun (cs, rest) => (.text (String.ofList cs), rest)
      else
        match readWord (c :: rest) with
        | some answer => some answer
        | none => if c = '-' then readNumber true rest else readNumber false (c :: rest)

def readItems : (fuel : Nat) → List Char → Option (List Value × List Char)
  | 0, _ => none
  | fuel + 1, cs => do
    let (v, rest) ← readValue fuel cs
    match skipSpace rest with
    | ',' :: rest =>
      let (items, rest) ← readItems fuel rest
      return (v :: items, rest)
    | ']' :: rest => return ([v], rest)
    | _ => none

def readFields : (fuel : Nat) → Fields → List Char → Option (Fields × List Char)
  | 0, _, _ => none
  | fuel + 1, before, cs => do
    let (name, rest) ← readValue fuel cs
    match name, skipSpace rest with
    | .text name, ':' :: rest =>
      let (v, rest) ← readValue fuel rest
      let fields := before.insert name v
      match skipSpace rest with
      | ',' :: rest => readFields fuel fields rest
      | c :: rest => if c = Char.ofNat 0x7d then some (fields, rest) else none
      | [] => none
    | _, _ => none

end

def parse? (s : String) : Option Value :=
  match readValue (s.length + 1) s.toList with
  | some (v, rest) => if (skipSpace rest).isEmpty then some v else none
  | none => none

end CatalogPlan.Json
