import CatalogPlan.Sql.Tree

/-!
# Grouping tokens

A statement's tokens become a tree by passes in a fixed order. Each pass looks
at one list of trees at a time and puts neighbours into groups.
-/

namespace CatalogPlan.Sql.Grouping

open CatalogPlan.Sql.Tree

/-! ## Comments and matching pairs -/

def isComment : Tree → Bool :=
  isToken [.comment]

def isLineEnd : Tree → Bool :=
  isToken [.lineEnd]

/-- Groups runs of comments and line ends. `run` is the run at hand; one that
nothing follows stays as it is. -/
def gatherComments (run : List Tree) : List Tree → List Tree
  | [] => run
  | t :: rest =>
    if isComment t || (isLineEnd t && !run.isEmpty) then gatherComments (run ++ [t]) rest
    else if run.isEmpty then t :: gatherComments [] rest
    else .group .comment run :: t :: gatherComments [] rest

structure Enclosing where
  kind : GroupKind
  opens : Tree → Bool
  closes : Tree → Bool

def enclosings : List Enclosing :=
  [⟨.brackets, isPunctuation "[", isPunctuation "]"⟩,
   ⟨.parenthesis, isPunctuation "(", isPunctuation ")"⟩,
   ⟨.caseExpr, isWord ["CASE"], isWord ["END"]⟩,
   ⟨.ifBlock, isWord ["IF"], isWord ["END IF"]⟩,
   ⟨.forLoop, isWord ["FOR", "FOREACH"], isWord ["END LOOP"]⟩,
   ⟨.beginBlock, isWord ["BEGIN"], isWord ["END"]⟩]

/-- Trees read so far that lie after the opening marks that are still open, the
innermost first, each starting with its mark. -/
abbrev OpenGroups := List (List Tree)

def addInside (done : List Tree) (opened : OpenGroups) (t : Tree) : List Tree × OpenGroups :=
  match opened with
  | [] => (done ++ [t], [])
  | inner :: outer => (done, (inner ++ [t]) :: outer)

/-- Groups what stands between matching marks. An opening mark without a closing
one, and a closing one without an opening one, stay as they are. -/
def enclose (e : Enclosing) (done : List Tree) (opened : OpenGroups) : List Tree → List Tree
  | [] => done ++ opened.reverse.flatten
  | t :: rest =>
    if e.opens t then enclose e done ([t] :: opened) rest
    else if e.closes t then
      match opened with
      | inner :: outer =>
        let (done, outer) := addInside done outer (.group e.kind (inner ++ [t]))
        enclose e done outer rest
      | [] => enclose e (done ++ [t]) [] rest
    else
      let (done, opened) := addInside done opened t
      enclose e done opened rest

/-! ## Neighbours -/

/-- Joins a tree with the next one that is not blank, when the two fit. `held`
is a tree that may be joined with the blanks after it. Where `chains` holds the
joined tree may be joined again. -/
def joinNext (first second : Tree → Bool) (join : Tree → List Tree → Tree) (chains : Bool)
    (held : Option (Tree × List Tree)) : List Tree → List Tree
  | [] => match held with
    | none => []
    | some (h, blanks) => h :: blanks
  | t :: rest =>
    match held with
    | none =>
      if first t then joinNext first second join chains (some (t, [])) rest
      else t :: joinNext first second join chains none rest
    | some (h, blanks) =>
      if t.isBlank then joinNext first second join chains (some (h, blanks ++ [t])) rest
      else if second t then
        let joined := join h (blanks ++ [t])
        if chains then joinNext first second join chains (some (joined, [])) rest
        else joined :: joinNext first second join chains none rest
      else
        h :: blanks ++
          (if first t then joinNext first second join chains (some (t, [])) rest
          else t :: joinNext first second join chains none rest)

def leadingBlanks (ts : List Tree) : List Tree × List Tree :=
  (ts.takeWhile isBlank, ts.dropWhile isBlank)

/-- Makes a call of a name and the trees that follow it, of which the calls have
been grouped: its arguments, and the window it runs over if one is given. -/
def attachArguments (name : Tree) (following : List Tree) : List Tree :=
  match leadingBlanks following with
  | (blanks, arguments :: rest) =>
    if arguments.isKind .parenthesis then
      match leadingBlanks rest with
      | (more, window :: rest') =>
        if window.isKind .over then
          .group .call (name :: blanks ++ arguments :: more ++ [window]) :: rest'
        else .group .call (name :: blanks ++ [arguments]) :: rest
      | (_, []) => .group .call (name :: blanks ++ [arguments]) :: rest
    else name :: following
  | (_, []) => name :: following

def isNaming : Tree → Bool
  | .leaf t => t.kind.isNaming
  | .group .. => false

def isNumber : Tree → Bool
  | .leaf t => t.kind.isNumber
  | .group .. => false

/-- Whether a list defines a table other than from a query. What looks like a
call there is a column or a constraint. -/
def definesTable (ts : List Tree) : Bool :=
  ts.any (fun t => Text.capitals t.text == "CREATE") &&
    ts.any (fun t => Text.capitals t.text == "TABLE") && !ts.any (fun t => t.text == "AS")

def gatherCalls (ts : List Tree) : List Tree :=
  if definesTable ts then ts
  else ts.foldr (fun t following =>
    if isNaming t then attachArguments t following else t :: following) []

def conditionEnds : List String :=
  ["ORDER BY", "GROUP BY", "LIMIT", "UNION", "UNION ALL", "EXCEPT", "INTERSECT", "HAVING",
   "RETURNING", "INTO"]

def gatherConditions (condition : List Tree) : List Tree → List Tree
  | [] => if condition.isEmpty then [] else [.group .whereClause condition]
  | t :: rest =>
    if condition.isEmpty then
      if t.isWord ["WHERE"] then gatherConditions [t] rest else t :: gatherConditions [] rest
    else if t.isWord conditionEnds then .group .whereClause condition :: t :: gatherConditions [] rest
    else gatherConditions (condition ++ [t]) rest

def between (pass : List Tree → List Tree) : List Tree → List Tree
  | [] => []
  | first :: rest =>
    match rest.getLast? with
    | none => [first]
    | some last => first :: pass rest.dropLast ++ [last]

def isEnclosed : GroupKind → Bool
  | .brackets | .parenthesis | .caseExpr | .ifBlock | .forLoop | .beginBlock => true
  | _ => false

def inGroup (pass : List Tree → List Tree) (kind : GroupKind) (ts : List Tree) : List Tree :=
  if isEnclosed kind then between pass ts else pass ts

/-! ## Trees between two others -/

/-- A pass that groups a tree in the middle with its two neighbours. -/
structure Binary where
  kind : GroupKind
  /-- A group of the kind on the left takes the new trees in. -/
  extending : Bool
  middle : Tree → Bool
  left : Tree → Bool
  /-- What may stand on the right; some passes need nothing there. -/
  right : Option Tree → Bool
  /-- Whether the tree on the right becomes part of the group. -/
  takesRight : Tree → Bool
  /-- The group goes on to the next semicolon if there is one. -/
  toSemicolon : Bool
  /-- What the tree in the middle becomes. -/
  retag : Tree → Tree

structure Scan where
  settled : List Tree
  /-- The tree at hand, and the last tree that went into it, which is the one
  that has to fit on the left. -/
  held : Option (Tree × Tree)
  gap : List Tree
  /-- A middle that waits for its right neighbour, with the blanks after it; no
  tree when the middle is part of the tree at hand already. -/
  waiting : Option (Option Tree × List Tree)
  /-- Trees go into the tree at hand up to the next semicolon. -/
  absorbing : Bool
deriving Inhabited

namespace Scan

def start : Scan := ⟨[], none, [], none, false⟩

def toList (s : Scan) : List Tree :=
  s.settled ++ (s.held.map (·.1)).toList ++ s.gap ++
    (match s.waiting with
      | none => []
      | some (middle, blanks) => middle.toList ++ blanks)

def hold (s : Scan) (t : Tree) : Scan :=
  ⟨s.toList, some (t, t), [], none, false⟩

def release (s : Scan) : Scan :=
  match s.waiting with
  | none => s
  | some (some middle, blanks) => { hold { s with waiting := none } middle with gap := blanks }
  | some (none, blanks) => { s with gap := blanks, waiting := none }

def addBlank (s : Scan) (t : Tree) : Scan :=
  match s.waiting, s.held with
  | some (middle, blanks), _ => { s with waiting := some (middle, blanks ++ [t]) }
  | none, some _ => { s with gap := s.gap ++ [t] }
  | none, none => { s with settled := s.settled ++ [t] }

def absorb (s : Scan) (t : Tree) : Scan :=
  { s with
    held := s.held.map fun (h, _) => (h.extend [t], t)
    absorbing := !t.isPunctuation ";" }

end Scan

namespace Binary

variable (b : Binary)

/-- The middle that waits gets nothing on its right: it closes the group where
that may be, and is released otherwise. -/
def close (s : Scan) (right : Option Tree) : Scan :=
  match s.held, s.waiting with
  | some (h, _), some (middle, blanks) =>
    if b.right right then
      let grown := gather b.kind b.extending h (s.gap ++ middle.toList.map b.retag)
      ⟨s.settled, some (grown, grown), blanks, none, false⟩
    else s.release
  | _, _ => s.release

def meet (s : Scan) (t : Tree) : Scan :=
  match s.held with
  | some (_, last) =>
    if b.middle t && b.left last then { s with waiting := some (some t, []) } else s.hold t
  | none => s.hold t

def complete (s : Scan) (h : Tree) (middle : Option Tree) (blanks : List Tree) (t : Tree)
    (semicolonAhead : Bool) : Scan :=
  if b.right (some t) && b.takesRight t then
    let grown := gather b.kind b.extending h (s.gap ++ middle.toList.map b.retag ++ blanks ++ [t])
    if b.toSemicolon && semicolonAhead then ⟨s.settled, some (grown, t), [], none, true⟩
    else if b.middle t && b.left grown then ⟨s.settled, some (grown, t), [], some (none, []), false⟩
    else ⟨s.settled, some (grown, t), [], none, false⟩
  else b.meet (b.close s (some t)) t

def step (s : Scan) (t : Tree) (semicolonAhead : Bool) : Scan :=
  if s.absorbing then s.absorb t
  else if t.isBlank then s.addBlank t
  else
    match s.held, s.waiting with
    | some (h, _), some (middle, blanks) => b.complete s h middle blanks t semicolonAhead
    | _, _ => b.meet s t

def scan (s : Scan) : List Tree → Scan
  | [] => b.close s none
  | t :: rest => scan (b.step s t (rest.any (isPunctuation ";"))) rest

def apply (ts : List Tree) : List Tree :=
  (b.scan .start ts).toList

end Binary

/-! ## The passes -/

def names : List TokenKind := [.name, .placeholder]

def strings : List TokenKind := [.string, .symbol]

def numbers : List TokenKind := [.integer, .float]

def isNull (t : Tree) : Bool :=
  match t with
  | .leaf token => token.kind.isKeyword && Text.capitals token.text == "NULL"
  | .group .. => false

def isKeyword : Tree → Bool
  | .leaf t => t.kind.isKeyword
  | .group .. => false

def needs (p : Tree → Bool) (t : Option Tree) : Bool :=
  (t.map p).getD false

/-- Names joined by dots and by arrows into values. What follows a dot need not
be a name. -/
def members : Binary where
  kind := .identifier
  extending := true
  middle t := isDot t || (match t with
    | .leaf token => token.kind == .operator && (token.text == "->" || token.text == "->>")
    | .group .. => false)
  left t := t.isOneOf [.brackets, .identifier] || t.isToken [.name, .symbol]
  right _ := true
  takesRight t := t.isOneOf [.brackets, .call] || t.isToken [.name, .symbol, .wildcard, .string]
  toSemicolon := false
  retag := id

def indexes : Binary where
  kind := .identifier
  extending := true
  middle := isKind .brackets
  left t := t.isOneOf [.brackets, .identifier, .call] || t.isToken [.name, .symbol]
  right _ := true
  takesRight _ := false
  toSemicolon := false
  retag := id

def typeCasts : Binary where
  kind := .identifier
  extending := true
  middle := isPunctuation "::"
  left _ := true
  right t := t.isSome
  takesRight _ := true
  toSemicolon := false
  retag := id

def zoneCasts : Binary where
  kind := .identifier
  extending := true
  middle := isToken [.zoneCast]
  left _ := true
  right := needs fun t => t.isWord ["AS"] || t.isToken [.string]
  takesRight _ := true
  toSemicolon := false
  retag := id

def isOperand (t : Tree) : Bool :=
  t.isOneOf [.parenthesis, .call, .identifier, .operation, .typedLiteral] ||
    t.isToken (numbers ++ strings ++ names)

def isArithmeticOperand (t : Tree) : Bool :=
  isOperand t || t.isKind .brackets || t.isWord ["CURRENT_DATE", "CURRENT_TIME", "CURRENT_TIMESTAMP"]

def operations : Binary where
  kind := .operation
  extending := false
  middle := isToken [.operator, .wildcard]
  left := isArithmeticOperand
  right := needs isArithmeticOperand
  takesRight _ := true
  toSemicolon := false
  retag
    | .leaf t => .leaf ⟨.operator, t.text⟩
    | t => t

def comparisons : Binary where
  kind := .comparison
  extending := false
  middle := isToken [.comparison]
  left t := isOperand t || isNull t
  right := needs fun t => isOperand t || isNull t
  takesRight _ := true
  toSemicolon := false
  retag := id

def aliases : Binary where
  kind := .identifier
  extending := true
  middle t := match t with
    | .leaf token => token.kind.isKeyword && Text.capitals token.text == "AS"
    | .group .. => false
  left t := isNull t || !isKeyword t
  right := needs fun t => !t.isToken [.dml, .ddl, .cte]
  takesRight _ := true
  toSemicolon := false
  retag := id

def assignments : Binary where
  kind := .assignment
  extending := true
  middle := isToken [.assignment]
  left t := !t.isToken [.keyword]
  right := needs fun t => !t.isToken [.keyword]
  takesRight _ := true
  toSemicolon := true
  retag := id

def isListMember (t : Tree) : Bool :=
  t.isOneOf [.call, .caseExpr, .identifier, .comparison, .identifierList, .operation] ||
    t.isToken (numbers ++ strings ++ names ++ [.keyword, .wildcard])

def lists : Binary where
  kind := .identifierList
  extending := true
  middle := isPunctuation ","
  left := isListMember
  right := needs isListMember
  takesRight _ := true
  toSemicolon := false
  retag := id

def wrap (kind : GroupKind) (t : Tree) (more : List Tree) : Tree :=
  .group kind (t :: more)

def gatherWindows : List Tree → List Tree :=
  joinNext (isWord ["OVER"]) (fun t => t.isKind .parenthesis || isNaming t) (wrap .over) false none

def gatherNames (ts : List Tree) : List Tree :=
  ts.map fun t => if t.isToken [.name, .symbol] then .group .identifier [t] else t

def gatherOrderings : List Tree → List Tree :=
  joinNext (fun t => t.isKind .identifier || isNumber t) (isToken [.ordering]) (wrap .identifier) true none

def afterFirst (pass : List Tree → List Tree) : List Tree → List Tree
  | [] => []
  | t :: rest => if t.isBlank then t :: afterFirst pass rest else t :: pass rest

def gatherTyped : List Tree → List Tree :=
  afterFirst (joinNext (isToken [.builtin]) (isToken [.string]) (wrap .typedLiteral) false none)

def gatherUnits : List Tree → List Tree :=
  afterFirst (joinNext (isKind .typedLiteral)
    (isWord ["DAY", "HOUR", "MINUTE", "MONTH", "SECOND", "YEAR"]) (gather .typedLiteral true) false none)

def gatherAliased : List Tree → List Tree :=
  joinNext
    (fun t => t.isOneOf [.parenthesis, .call, .caseExpr, .identifier, .operation, .comparison] ||
      isNumber t)
    (isKind .identifier) (gather .identifier true) false none

def alignComments : List Tree → List Tree :=
  joinNext isGroup (isKind .comment) Tree.extend true none

def splitRows (ts : List Tree) : List Tree × List Tree :=
  let after := (ts.reverse.takeWhile fun t => !t.isKind .parenthesis).reverse
  (ts.take (ts.length - after.length), after)

def gatherRows : List Tree → List Tree
  | [] => []
  | t :: rest =>
    if t.isWord ["VALUES"] then
      match splitRows (t :: rest) with
      | ([], _) => t :: rest
      | (rows, after) => .group .values rows :: after
    else t :: gatherRows rest

def anywhere (_ : GroupKind) : Bool := true

def outside (kind : GroupKind) (k : GroupKind) : Bool := k != kind

def throughout (enter : GroupKind → Bool) (pass : GroupKind → List Tree → List Tree)
    (ts : List Tree) : List Tree :=
  pass .statement (regroupAll enter pass ts)

def binaryPass (b : Binary) (ts : List Tree) : List Tree :=
  throughout (outside b.kind) (inGroup b.apply) ts

def plainly (pass : List Tree → List Tree) (_ : GroupKind) (ts : List Tree) : List Tree :=
  pass ts

/-- The conditions of a group; the mark that closes the group stays outside. -/
def conditionsOf (kind : GroupKind) (ts : List Tree) : List Tree :=
  if kind = .brackets ∨ kind = .parenthesis then between (gatherConditions []) ts
  else gatherConditions [] ts

def passes : List (List Tree → List Tree) :=
  [throughout (outside .comment) (plainly (gatherComments []))] ++
  enclosings.map (fun e => throughout (outside e.kind) (plainly (enclose e [] []))) ++
  [throughout (outside .over) (plainly gatherWindows),
   throughout (outside .call) (plainly gatherCalls),
   throughout (outside .whereClause) conditionsOf,
   binaryPass members,
   indexes.apply,
   throughout (outside .identifier) (plainly gatherNames),
   gatherOrderings,
   binaryPass typeCasts,
   binaryPass zoneCasts,
   throughout (outside .typedLiteral) (inGroup gatherTyped),
   throughout (outside .typedLiteral) (inGroup gatherUnits),
   binaryPass operations,
   binaryPass comparisons,
   binaryPass aliases,
   throughout anywhere (plainly gatherAliased),
   binaryPass assignments,
   throughout anywhere (plainly alignComments),
   binaryPass lists,
   gatherRows]

end Grouping

def group (ts : List Token) : List Tree :=
  Grouping.passes.foldl (fun trees pass => pass trees) (ts.map .leaf)

end CatalogPlan.Sql
