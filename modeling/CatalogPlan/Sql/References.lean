import CatalogPlan.Fault
import CatalogPlan.Sql.Parser

/-!
# References in SQL text

A walk through the tree of a statement finds the relations, which stand after
certain keywords, and the functions that are called. Names are as written,
without quotes.
-/

namespace CatalogPlan.Sql

/-- A name as written, with its schema if one is given. A call may have no
name. -/
structure WrittenName where
  schema : Option String
  name : Option String
deriving DecidableEq, Inhabited

def WrittenName.le (a b : WrittenName) : Bool :=
  let key (w : WrittenName) : (Bool × String) × (Bool × String) :=
    ((w.schema.isSome, w.schema.getD ""), (w.name.isSome, w.name.getD ""))
  let flagLt (x y : Bool) : Bool := !x && y
  lexLe (fun x y => lexLe flagLt textLe x y && x != y) (lexLe flagLt textLe) (key a) (key b)

structure References where
  relations : List WrittenName
  functions : List WrittenName
deriving DecidableEq, Inhabited

namespace References

def none : References := ⟨[], []⟩

def append (a b : References) : References :=
  ⟨a.relations ++ b.relations, a.functions ++ b.functions⟩

def relation (w : WrittenName) : References := ⟨[w], []⟩

def function (w : WrittenName) : References := ⟨[], [w]⟩

def distinct (r : References) : References :=
  ⟨r.relations.eraseDups, r.functions.eraseDups⟩

end References

def announcesRelation (word : String) : Bool :=
  ["FROM", "INTO", "UPDATE", "TABLE", "USING"].contains (Text.capitals word) ||
    ['J', 'O', 'I', 'N'].isSuffixOf (Text.capitals word).toList

/-- Tokens that stand between a keyword and the relation it announces. -/
def Token.isPassedOver (t : Token) : Bool :=
  t.kind.isBlank || t.kind == .comment || t.kind == .punctuation

variable [Parser]

def firstCallName? : List Tree → Option (Option String)
  | [] => none
  | .group .call children :: _ => some (Parser.realName children)
  | _ :: rest => firstCallName? rest

/-- A relation by the name of its group; a group without one is none. -/
def namedRelation (children : List Tree) : References :=
  match Parser.realName children with
  | some name =>
    if name = "" then .none else .relation ⟨Parser.parentName children, some name⟩
  | none => .none

mutual

/-- Goes through trees from left to right. `expected` tells whether a keyword
has announced a relation that has not come yet. -/
def walk (expected : Bool) : List Tree → Except Fault References
  | [] => .ok .none
  | t :: rest => do
    let here ← walkTree expected t
    let expected := match t with
      | .leaf token =>
        if token.isPassedOver then expected
        else token.kind.isKeyword && announcesRelation token.text
      | .group .. => false
    return here.append (← walk expected rest)

def walkTree (expected : Bool) : Tree → Except Fault References
  | .leaf _ => .ok .none
  | .group k children =>
    match expected, k with
    | true, .identifierList => walkMembers children
    | true, .identifier =>
      if children.any (·.isKind .parenthesis) then walk false children
      else .ok (namedRelation children)
    | true, .call => .ok (namedRelation children)
    | _, .call => do
      return (References.function ⟨none, Parser.realName children⟩).append (← walk false children)
    | _, .identifier =>
      match firstCallName? children with
      | some name => do
        return (References.function ⟨Parser.parentName children, name⟩).append
          (← walkFirstCall children)
      | none => walk false children
    | _, _ => walk false children

def walkFirstCall : List Tree → Except Fault References
  | [] => .ok .none
  | .group .call children :: _ => walk false children
  | _ :: rest => walkFirstCall rest

/-- The members of a list of relations; a bare token among them is no
relation. -/
def walkMembers : List Tree → Except Fault References
  | [] => .ok .none
  | .leaf token :: rest =>
    if token.kind.isBlank || token.isPunctuation "," then walkMembers rest
    else .error .bareListMember
  | .group k children :: rest => do
    let here ←
      if k != .call && children.any (·.isKind .parenthesis) then walk false children
      else if k == .call || k == .identifier then pure (namedRelation children)
      else pure .none
    return here.append (← walkMembers rest)

end

def references (sql : String) : Except Fault References := do
  let found ← (Parser.parse sql).mapM (walk false)
  return (found.foldl References.append .none).distinct

end CatalogPlan.Sql
