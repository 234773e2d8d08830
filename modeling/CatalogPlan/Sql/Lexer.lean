import CatalogPlan.Sql.Vocabulary
import CatalogPlan.Text.Blank
import CatalogPlan.Text.Lower
import CatalogPlan.Text.Quotes

/-!
# Lexing SQL text

At each place the first rule that applies gives the next token. A rule looks at
the character before the place and at the text from there on, and gives the
text that is left after its token. Words are compared without regard to case.
-/

namespace CatalogPlan.Sql.Lexer

open CatalogPlan.Text

abbrev Recognizer := Option Char → List Char → Option (List Char)

/-- A character that an SQL name may start with: a letter of the Latin-1 block
that has a capital, or one that is the same letter when case is ignored. -/
def isNameStart (c : Char) : Bool :=
  let n := c.toNat
  isAsciiLetter c || (0xc0 ≤ n && n ≤ 0xdc) || (0xe0 ≤ n && n ≤ 0xfc && n != 0xf7) ||
    n == 0x130 || n == 0x131 || n == 0x17f || n == 0x212a || n == 0x212b

def wordBefore (before : Option Char) : Bool :=
  (before.map isWord).getD false

def atWordEnd : List Char → Bool
  | c :: _ => !isWord c
  | [] => true

def afterWord (cs : List Char) : List Char :=
  cs.dropWhile isWord

def exactly? : List Char → List Char → Option (List Char)
  | [], cs => some cs
  | d :: ds, c :: cs => if c = d then exactly? ds cs else none
  | _ :: _, [] => none

def word? : List Char → List Char → Option (List Char)
  | [], cs => some cs
  | d :: ds, c :: cs => if foldLetter c = d then word? ds cs else none
  | _ :: _, [] => none

def blanks? : List Char → Option (List Char)
  | c :: cs => if isBlank c then some (cs.dropWhile isBlank) else none
  | [] => none

def phrase? : List String → List Char → Option (List Char)
  | [], cs => if atWordEnd cs then some cs else none
  | [w], cs => (word? w.toList cs).bind fun rest => if atWordEnd rest then some rest else none
  | w :: ws, cs => (word? w.toList cs).bind fun rest => (blanks? rest).bind (phrase? ws)

/-! ## Comments and blanks -/

def afterMark? (mark : List Char) : List Char → Option (List Char)
  | [] => none
  | c :: cs =>
    match exactly? mark (c :: cs) with
    | some rest => some rest
    | none => afterMark? mark cs

def blockComment : Recognizer := fun _ cs =>
  (exactly? ['/', '*'] cs).bind (afterMark? ['*', '/'])

def lineEnd? : List Char → Option (List Char)
  | '\r' :: '\n' :: cs => some cs
  | '\r' :: cs => some cs
  | '\n' :: cs => some cs
  | _ => none

def afterLine : List Char → List Char
  | [] => []
  | c :: cs =>
    match lineEnd? (c :: cs) with
    | some rest => rest
    | none => afterLine cs

def lineComment : Recognizer := fun _ cs =>
  ((exactly? ['-', '-'] cs).or (exactly? ['#', ' '] cs)).map afterLine

def lineEnd : Recognizer := fun _ cs => lineEnd? cs

def blank : Recognizer
  | _, c :: cs => if isBlank c then some cs else none
  | _, [] => none

/-! ## Quoted text -/

/-- The text after a closing quote. A doubled quote does not close, nor does one
after a backslash where `escapes` holds, unless nothing closes otherwise. -/
def closing? (quote : Char) (escapes : Bool) : List Char → Option (List Char)
  | [] => none
  | [c] => if c = quote then some [] else none
  | c :: d :: cs =>
    if c = quote then
      if d = quote then (closing? quote escapes cs).or (some (d :: cs)) else some (d :: cs)
    else if escapes && c == '\\' && d == quote then
      (closing? quote escapes cs).or (closing? quote escapes (d :: cs))
    else closing? quote escapes (d :: cs)

def quoted (quote : Char) (escapes : Bool) : Recognizer
  | _, c :: cs => if c = quote then closing? quote escapes cs else none
  | _, [] => none

def graveAccent : Char := Char.ofNat 0x60

def acuteAccent : Char := Char.ofNat 0xb4

def foldTag (c : Char) : Char :=
  (lowerChar c).headD c

def afterTag? (tag : List Char) : List Char → Option (List Char)
  | [] => none
  | c :: cs =>
    if ((c :: cs).take tag.length).map foldTag = tag.map foldTag then some ((c :: cs).drop tag.length)
    else afterTag? tag cs

def tagged : Recognizer
  | before, '$' :: cs =>
    if wordBefore before || before == some doubleQuote || before == some '$' then none else
      let name := match cs with
        | c :: rest => if isNameStart c || c == '_' then c :: rest.takeWhile isWord else []
        | [] => []
      match cs.drop name.length with
      | '$' :: rest => afterTag? ('$' :: name ++ ['$']) rest
      | _ => none
  | _, _ => none

def bracketed : Recognizer
  | before, '[' :: cs =>
    if wordBefore before || before == some ']' || before == some ')' then none else
      let inner := cs.takeWhile fun c => c != '[' && c != ']'
      match inner, cs.drop inner.length with
      | _ :: _, ']' :: rest => some rest
      | _, _ => none
  | _, _ => none

/-! ## Placeholders and names -/

def mark (m : String) : Recognizer := fun _ cs => exactly? m.toList cs

def formatPlaceholder : Recognizer
  | _, '%' :: '(' :: cs =>
    if atWordEnd cs then none else (exactly? [')'] (afterWord cs)).bind (word? ['S'])
  | _, '%' :: cs => word? ['S'] cs
  | _, _ => none

def placeholder : Recognizer
  | before, c :: cs =>
    if (c == '$' || c == ':' || c == '?') && !wordBefore before && !atWordEnd cs then
      some (afterWord cs)
    else none
  | _, [] => none

def command : Recognizer
  | _, '\\' :: cs => if atWordEnd cs then none else some (afterWord cs)
  | _, _ => none

def fixedWord : Recognizer := fun _ cs =>
  ["CASE", "IN", "VALUES", "USING", "FROM", "AS"].findSome? fun w => phrase? [w] cs

/-- A name of two characters or more after `@`, `##` or `#`. -/
def sigilName : Recognizer := fun _ cs =>
  [['@'], ['#', '#'], ['#']].findSome? fun sigil =>
    (exactly? sigil cs).bind fun
      | c :: d :: rest => if isNameStart c && isWord d then some (afterWord rest) else none
      | _ => none

def nameWord? : List Char → Option (List Char)
  | c :: cs => if isNameStart c then some (afterWord cs) else none
  | [] => none

def dotFollows (cs : List Char) : Bool :=
  match cs.dropWhile isBlank with
  | '.' :: c :: _ => !isDigit c
  | ['.'] => true
  | _ => false

def qualifier : Recognizer := fun _ cs =>
  (nameWord? cs).bind fun rest => if dotFollows rest then some rest else none

def member : Recognizer := fun before cs =>
  if before = some '.' then nameWord? cs else none

def callee : Recognizer := fun _ cs =>
  (nameWord? cs).bind fun rest => if rest.head? = some '(' then some rest else none

/-! ## Numbers -/

def digits? (cs : List Char) : Option (List Char) :=
  match cs with
  | c :: rest => if isDigit c then some (rest.dropWhile isDigit) else none
  | [] => none

def unsigned : List Char → List Char
  | '-' :: cs => cs
  | cs => cs

def nameGoesOn : List Char → Bool
  | c :: _ => isNameStart c || c == '_'
  | [] => false

/-- Gives back the last of the digits read when a name would go on after them,
as long as `least` of them stay. -/
def giveBack (least : Nat) (cs : List Char) : Option (List Char) :=
  let run := cs.takeWhile isDigit
  let rest := cs.drop run.length
  if !nameGoesOn rest then if least ≤ run.length then some rest else none
  else if least + 1 ≤ run.length then some (cs.drop (run.length - 1)) else none

def hexNumber : Recognizer := fun _ cs =>
  (word? ['0', 'X'] (unsigned cs)).bind fun rest =>
    let isHex := fun c : Char => isDigit c || ('A' ≤ capital c && capital c ≤ 'F')
    match rest with
    | c :: more => if isHex c then some (more.dropWhile isHex) else none
    | [] => none

def scientific : Recognizer := fun _ cs => do
  let rest ← digits? (unsigned cs)
  let rest := match rest with
    | '.' :: more => (digits? more).getD rest
    | _ => rest
  let rest ← word? ['E'] rest
  digits? (unsigned rest)

def decimal : Recognizer := fun _ cs =>
  match unsigned cs with
  | '.' :: rest => giveBack 1 rest
  | rest => (digits? rest).bind fun
    | '.' :: more => giveBack 0 more
    | _ => none

def whole : Recognizer := fun _ cs => giveBack 1 (unsigned cs)

/-! ## Phrases -/

def joins : List (List String) :=
  ["CROSS", "JOIN"] :: ["NATURAL", "JOIN"] ::
    ([["LEFT"], ["RIGHT"], ["FULL"], []].flatMap fun side =>
      [["INNER"], ["OUTER"], ["STRAIGHT"], []].map fun manner => side ++ manner ++ ["JOIN"])

def orderings : List (List String) :=
  ["ASC", "DESC"].flatMap fun direction =>
    [[direction, "NULLS", "FIRST"], [direction, "NULLS", "LAST"], [direction]]

/-- The phrases of each kind. Of two phrases that begin alike the longer stands
first. -/
def phrases : List (TokenKind × List (List String)) :=
  [(.keyword, joins),
   (.keyword, ["IF", "LOOP", "WHILE", "FOR", "CASE"].map (["END", ·]) ++ [["END"]]),
   (.keyword, [["IF", "NOT", "EXISTS"], ["IF", "EXISTS"], ["NOT", "NULL"]]),
   (.ordering, orderings ++ [["NULLS", "FIRST"], ["NULLS", "LAST"]]),
   (.keyword, [["UNION", "ALL"]]),
   (.ddl, [["CREATE", "OR", "REPLACE"], ["CREATE"]]),
   (.builtin, [["DOUBLE", "PRECISION"]]),
   (.keyword, [["GROUP", "BY"], ["ORDER", "BY"], ["PRIMARY", "KEY"], ["HANDLER", "FOR"]]),
   (.keyword, ["EXPLODE", "INLINE", "PARSE_URL_TUPLE", "POSEXPLODE", "STACK"].map
     (["LATERAL", "VIEW", ·])),
   (.comparison, ["LIKE", "ILIKE", "RLIKE"].flatMap fun w => [["NOT", w], [w]]),
   (.comparison, [["NOT", "REGEXP", "BINARY"], ["NOT", "REGEXP"], ["REGEXP", "BINARY"], ["REGEXP"]])]

def batchCount : Recognizer := fun _ cs =>
  (word? ['G', 'O'] cs).bind fun
    | c :: rest =>
      if isBlank c then (digits? rest).bind fun rest => if atWordEnd rest then some rest else none
      else none
    | [] => none

def zoneCast : Recognizer := fun _ cs => do
  let rest ← (word? ['A', 'T'] cs).or (word? (['W', 'I', 'T', 'H', singleQuote]) cs)
  let rest ← blanks? rest
  let rest ← word? ['T', 'I', 'M', 'E'] rest
  let rest ← blanks? rest
  let rest ← word? ['Z', 'O', 'N', 'E'] rest
  let rest ← blanks? rest
  let rest ← exactly? [singleQuote] rest
  match rest with
  | c :: _ => if c = singleQuote then none else exactly? [singleQuote] (rest.dropWhile (· != singleQuote))
  | [] => none

/-! ## The rules -/

def oneOf (marks : String) : Recognizer
  | _, c :: cs => if marks.toList.contains c then some cs else none
  | _, [] => none

def someOf (marks : String) : Recognizer
  | _, c :: cs =>
    if marks.toList.contains c then some (cs.dropWhile (marks.toList.contains ·)) else none
  | _, [] => none

def anyMark (ms : List String) : Recognizer := fun _ cs =>
  ms.findSome? fun m => exactly? m.toList cs

def rules : List (TokenKind × Recognizer) :=
  [(.comment, blockComment), (.literal, tagged), (.comment, lineComment), (.lineEnd, lineEnd),
   (.blank, blank), (.assignment, mark ":="), (.punctuation, mark "::"), (.wildcard, mark "*"),
   (.name, quoted graveAccent false), (.name, quoted acuteAccent false),
   (.placeholder, mark "?"), (.placeholder, formatPlaceholder), (.placeholder, placeholder),
   (.command, command), (.keyword, fixedWord), (.name, sigilName), (.name, qualifier),
   (.name, member), (.name, callee), (.hexadecimal, hexNumber), (.float, scientific),
   (.float, decimal), (.integer, whole), (.string, quoted singleQuote true),
   (.symbol, quoted doubleQuote true), (.name, bracketed)]

def markRules : List (TokenKind × Recognizer) :=
  [(.punctuation, oneOf ";:()[],."),
   (.operator, anyMark ["->>", "->", "#>>", "#>", "@>", "<@", "?|", "?&", "-", "#-"]),
   (.comparison, someOf "<>=~!"), (.operator, someOf "+/@#%^&|-")]

def plainWord? : List Char → Option (TokenKind × List Char)
  | c :: cs =>
    if isWord c then
      let rest := cs.dropWhile fun d => isWord d || d == '$' || d == '#'
      let text := (c :: cs).take (cs.length + 1 - rest.length)
      some (wordKind (capitals (String.ofList text)), rest)
    else none
  | [] => none

def applyRules (rs : List (TokenKind × Recognizer)) (before : Option Char) (cs : List Char) :
    Option (TokenKind × List Char) :=
  rs.findSome? fun (kind, recognize) => (recognize before cs).map (kind, ·)

def applyPhrases (cs : List Char) : Option (TokenKind × List Char) :=
  phrases.findSome? fun (kind, ps) => (ps.findSome? (phrase? · cs)).map (kind, ·)

def next (before : Option Char) (cs : List Char) : TokenKind × List Char :=
  ((applyRules rules before cs).or
    ((applyPhrases cs).or
      (((batchCount before cs).map (TokenKind.keyword, ·)).or
        (((zoneCast before cs).map (TokenKind.zoneCast, ·)).or
          ((plainWord? cs).or (applyRules markRules before cs)))))).getD (.unknown, cs.drop 1)

/-- The tokens of a text. The first `skip` characters belong to a token that has
been read. -/
def tokensFrom (skip : Nat) (before : Option Char) : List Char → List Token
  | [] => []
  | c :: cs =>
    match skip with
    | skip + 1 => tokensFrom skip (some c) cs
    | 0 =>
      let (kind, rest) := next before (c :: cs)
      let more := cs.length - rest.length
      ⟨kind, String.ofList (c :: cs.take more)⟩ :: tokensFrom more (some c) cs

end Lexer

def tokens (sql : String) : List Token :=
  Lexer.tokensFrom 0 none sql.toList

end CatalogPlan.Sql
