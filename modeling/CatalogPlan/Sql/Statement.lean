import CatalogPlan.Sql.Lexer

/-!
# Statements

A statement ends at a semicolon that stands outside parentheses and outside the
blocks of a routine, together with the blanks and line remarks after it.
-/

namespace CatalogPlan.Sql

/-- What decides whether a semicolon ends a statement. -/
structure Nesting where
  level : Int
  begins : Nat
  /-- The last word was one that begins a block or a transaction. -/
  justBegun : Bool
  inCase : Bool
  creating : Bool
deriving Inhabited

namespace Nesting

def start : Nesting := ⟨0, 0, false, false, false⟩

def openers : List String := ["IF", "FOR", "WHILE", "CASE"]

def closers : List String := ["END IF", "END FOR", "END WHILE"]

def transactionWords : List String :=
  ["TRANSACTION", "WORK", "TRAN", "DISTRIBUTED", "DEFERRED", "IMMEDIATE", "EXCLUSIVE"]

def afterWord (n : Nesting) (kind : TokenKind) (word : String) : Nesting :=
  if kind = .ddl ∧ word.startsWith "CREATE" then { n with creating := true }
  else if word = "DECLARE" ∧ n.creating ∧ n.begins = 0 then { n with level := n.level + 1 }
  else if word = "BEGIN" then
    { n with begins := n.begins + 1, justBegun := true,
             level := if n.creating then n.level + 1 else n.level }
  else if word = "END" then
    { n with begins := if n.inCase then n.begins else n.begins - 1, inCase := false,
             level := n.level - 1 }
  else if n.justBegun ∧ transactionWords.contains word then { n with begins := n.begins - 1 }
  else if openers.contains word ∧ n.creating ∧ 0 < n.begins then
    { n with inCase := n.inCase || word == "CASE", level := n.level + 1 }
  else if closers.contains word then { n with level := n.level - 1 }
  else n

def after (n : Nesting) (t : Token) : Nesting :=
  let quiet := t.kind.isBlank || t.kind == .comment
  let next :=
    if t.isPunctuation "(" then { n with level := n.level + 1 }
    else if t.isPunctuation ")" then { n with level := n.level - 1 }
    else if t.kind.isKeyword then n.afterWord t.kind (Text.capitals t.text)
    else if t.isPunctuation ";" ∧ n.justBegun then { n with begins := n.begins - 1 }
    else n
  if quiet then next
  else { next with justBegun := t.kind.isKeyword && Text.capitals t.text == "BEGIN" }

def ends (n : Nesting) (t : Token) : Bool :=
  (t.isPunctuation ";" && n.level ≤ 0 && n.begins == 0) ||
    (t.kind == .keyword &&
      ((t.text.toList.takeWhile fun c => !Text.isBlank c) == ['G', 'O']))

end Nesting

/-- A comment up to the end of its line that is no hint to the planner. -/
def Token.isLineRemark (t : Token) : Bool :=
  let marks := [['/', '*'], ['-', '-', '+'], ['#', ' ', '+']]
  t.kind == .comment && !marks.any (·.isPrefixOf t.text.toList)

def Token.trails (t : Token) : Bool :=
  t.kind == .blank || t.isLineRemark

/-- Splits tokens into statements. `ended` tells whether the statement at hand
has had its end. -/
def statementsFrom (n : Nesting) (ended : Bool) (current : List Token) :
    List Token → List (List Token)
  | [] => if current.isEmpty then [] else [current]
  | t :: rest =>
    if ended && !t.trails then
      let n := Nesting.start.after t
      current :: statementsFrom n (n.ends t) [t] rest
    else
      let n := n.after t
      statementsFrom n (ended || n.ends t) (current ++ [t]) rest

def statements (ts : List Token) : List (List Token) :=
  statementsFrom .start false [] ts

end CatalogPlan.Sql
