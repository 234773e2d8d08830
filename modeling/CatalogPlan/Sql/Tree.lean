import CatalogPlan.Sql.Token
import CatalogPlan.Text.Quotes

/-!
# Trees of tokens

A statement is a tree whose leaves are its tokens. Groups carry the names of
relations and calls.
-/

namespace CatalogPlan.Sql

inductive GroupKind where
  | statement
  | comment
  | brackets
  | parenthesis
  | caseExpr
  | ifBlock
  | forLoop
  | beginBlock
  | over
  | call
  | whereClause
  | identifier
  | typedLiteral
  | operation
  | comparison
  | assignment
  | identifierList
  | values
deriving DecidableEq, Repr, Inhabited

inductive Tree where
  | leaf (token : Token)
  | group (kind : GroupKind) (children : List Tree)
deriving Inhabited

namespace Tree

def isBlank : Tree → Bool
  | .leaf t => t.kind.isBlank
  | .group .. => false

def isGroup : Tree → Bool
  | .leaf _ => false
  | .group .. => true

def isKind (kind : GroupKind) : Tree → Bool
  | .leaf _ => false
  | .group k _ => k == kind

def isOneOf (kinds : List GroupKind) : Tree → Bool
  | .leaf _ => false
  | .group k _ => kinds.contains k

def isToken (kinds : List TokenKind) : Tree → Bool
  | .leaf t => kinds.contains t.kind
  | .group .. => false

def isWord (words : List String) : Tree → Bool
  | .leaf t => t.isWord words
  | .group .. => false

def isPunctuation (mark : String) : Tree → Bool
  | .leaf t => t.isPunctuation mark
  | .group .. => false

def extend (t : Tree) (more : List Tree) : Tree :=
  match t with
  | .leaf token => .leaf token
  | .group k children => .group k (children ++ more)

/-- One group of trees: the first tree is extended if it is of that kind and the
kind `extends`, else a new group is made. -/
def gather (kind : GroupKind) (extending : Bool) (first : Tree) (more : List Tree) : Tree :=
  if extending && first.isKind kind then first.extend more else .group kind (first :: more)

mutual

def text : Tree → String
  | .leaf t => t.text
  | .group _ children => textOf children

def textOf : List Tree → String
  | [] => ""
  | t :: rest => text t ++ textOf rest

end

mutual

def regroup (enter : GroupKind → Bool) (pass : GroupKind → List Tree → List Tree) : Tree → Tree
  | .leaf t => .leaf t
  | .group k children =>
    if enter k then .group k (pass k (regroupAll enter pass children)) else .group k children

def regroupAll (enter : GroupKind → Bool) (pass : GroupKind → List Tree → List Tree) :
    List Tree → List Tree
  | [] => []
  | t :: rest => regroup enter pass t :: regroupAll enter pass rest

end

/-! ## Names -/

/-- A name without the quotes around it; doubled quotes inside stay doubled. -/
def unquote (s : String) : String :=
  match s.toList with
  | [] => s
  | c :: rest =>
    if (c == Text.doubleQuote || c == Text.singleQuote || c.toNat == 0x60) &&
        (c :: rest).getLast? == some c then
      String.ofList rest.dropLast
    else s

def isNamePart : Tree → Bool :=
  isToken [.name, .wildcard, .symbol]

def isDot : Tree → Bool :=
  isPunctuation "."

mutual

/-- The name that a tree contributes when it is met in a group: nothing when it
has no say, and a missing name when it is a group without a name. -/
def nameHere? : Tree → Option (Option String)
  | .leaf t => if (Tree.leaf t).isNamePart then some (some (unquote t.text)) else none
  | .group k children =>
    if k = .identifier ∨ k = .call then some (nameAfterDot false children) else none

def nameAfterDot (seen : Bool) : List Tree → Option String
  | [] => none
  | t :: rest =>
    if !seen && rest.any isDot && !t.isDot then nameAfterDot seen rest
    else
      match nameHere? t with
      | some name => name
      | none => nameAfterDot (seen || t.isDot) rest

end

/-- The name of the object that a group stands for, without its schema. -/
def realName (children : List Tree) : Option String :=
  nameAfterDot false children

def beforeDot? (last : Option Tree) : List Tree → Option Tree
  | [] => none
  | t :: rest => if t.isDot then last else beforeDot? (if t.isBlank then last else some t) rest

def parentName (children : List Tree) : Option String :=
  (beforeDot? none children).map fun t => unquote t.text

end Tree

end CatalogPlan.Sql
