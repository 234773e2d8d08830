import CatalogPlan.Ini.Expansion
import CatalogPlan.Number.Numeral
import CatalogPlan.Value.Spelling

/-!
# Settings of a run

How to connect to the database, which schemas to plan, and how many queries may
run at a time, as an ini text gives them.
-/

namespace CatalogPlan

structure Settings where
  database : List (String × String)
  schemas : List String
  workers : Int
deriving DecidableEq, Inhabited

inductive SettingsFault where
  | ini (fault : Ini.Fault)
  | expansion (fault : Ini.ExpansionFault)
  /-- The database section or one of its options is missing. -/
  | missing (name : String)
  | notInteger (text : String)
  | tooFewWorkers (n : Int)
deriving DecidableEq, Inhabited

namespace SettingsFault

def maxQuoted : Nat := 200

def message? : SettingsFault → Option String
  | .missing name => some (Text.spelled name)
  | .notInteger text =>
    let quoted := String.ofList ((Text.spelled text).toList.take maxQuoted)
    some ("invalid literal for int() with base 10: " ++ quoted)
  | .tooFewWorkers n => some s!"max_workers must be at least 1, got {n}"
  | .ini _ | .expansion _ => none

end SettingsFault

namespace Settings

def databaseKeys : List String := ["dbname", "user", "password", "host", "port"]

def defaultSchemas : List String := ["public"]

def defaultWorkers : Int := 4

def value? (d : Ini.Document) (own : Ini.Options) (option : String) :
    Except SettingsFault (Option String) :=
  (d.expanded? own option).mapError .expansion

def readDatabase (d : Ini.Document) : Except SettingsFault (List (String × String)) :=
  match d.section? "database" with
  | none => .error (.missing "database")
  | some own => databaseKeys.mapM fun key => do
    match ← value? d own key with
    | some v => return (key, v)
    | none => throw (.missing key)

def schemaNames (text : String) : List String :=
  ((text.splitOn ",").map Text.strip).filter (· != "")

def readSchemas (d : Ini.Document) (planner : Option Ini.Options) :
    Except SettingsFault (List String) := do
  match planner with
  | none => return defaultSchemas
  | some own =>
    match ← value? d own "schemas" with
    | some text => return schemaNames text
    | none => return defaultSchemas

def readWorkers (d : Ini.Document) (planner : Option Ini.Options) :
    Except SettingsFault Int := do
  let given ← match planner with
    | none => pure none
    | some own => value? d own "max_workers"
  let n ← match given with
    | none => pure defaultWorkers
    | some text =>
      match Numeral.integer? text with
      | some n => pure n
      | none => throw (.notInteger text)
  if n < 1 then throw (.tooFewWorkers n) else return n

def ofDocument (d : Ini.Document) : Except SettingsFault Settings := do
  let database ← readDatabase d
  let planner := d.section? "planner"
  let schemas ← readSchemas d planner
  let workers ← readWorkers d planner
  return ⟨database, schemas, workers⟩

def read (text : Option String) : Except SettingsFault Settings := do
  let d ← match text with
    | none => pure ⟨[]⟩
    | some text => (Ini.read text).mapError .ini
  ofDocument d

end Settings

end CatalogPlan
