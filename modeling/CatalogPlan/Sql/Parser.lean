import CatalogPlan.Sql.Grouping
import CatalogPlan.Sql.Statement

/-!
# Parsers

What a search needs of a parser of SQL: the trees of a text, and the names that their
groups go by. The parser is inferred; where none is given it is the one of this library.
-/

namespace CatalogPlan.Sql

class Parser where
  /-- The trees of each statement of a text. -/
  parse : String → List (List Tree)
  /-- The name of the object that a group stands for, without its schema. -/
  realName : List Tree → Option String
  parentName : List Tree → Option String

instance : Parser where
  parse sql := (statements (tokens sql)).map group
  realName := Tree.realName
  parentName := Tree.parentName

end CatalogPlan.Sql
