import CatalogPlan.Text.Capitals

/-!
# Tokens of SQL text
-/

namespace CatalogPlan.Sql

/-- What a piece of SQL text is. Four kinds of keywords are told apart by what
statements they begin or belong to. -/
inductive TokenKind where
  | comment
  | lineEnd
  | blank
  | assignment
  | punctuation
  | wildcard
  | name
  | builtin
  | placeholder
  | command
  | keyword
  | ordering
  | zoneCast
  | dml
  | ddl
  | cte
  | dcl
  | hexadecimal
  | float
  | integer
  | string
  | symbol
  | literal
  | comparison
  | operator
  | unknown
deriving DecidableEq, Repr, Inhabited

namespace TokenKind

def isBlank : TokenKind → Bool
  | .blank | .lineEnd => true
  | _ => false

def isKeyword : TokenKind → Bool
  | .keyword | .ordering | .zoneCast | .dml | .ddl | .cte | .dcl => true
  | _ => false

def isNaming : TokenKind → Bool
  | .name | .builtin | .placeholder => true
  | _ => false

def isNumber : TokenKind → Bool
  | .hexadecimal | .float | .integer => true
  | _ => false

end TokenKind

structure Token where
  kind : TokenKind
  text : String
deriving DecidableEq, Repr, Inhabited

def Token.isWord (t : Token) (words : List String) : Bool :=
  t.kind == .keyword && words.contains (Text.capitals t.text)

def Token.isPunctuation (t : Token) (mark : String) : Bool :=
  t.kind == .punctuation && t.text == mark

end CatalogPlan.Sql
