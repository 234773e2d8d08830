import CatalogPlan.Fault

/-!
# A database server as its clients see it

Connections are numbered in the order in which they are opened. The server
notes every call that takes effect; a call that it refuses has no effect and is
not noted.
-/

namespace CatalogPlan.Snapshot

inductive Link where
  | usable
  | closed
  | dropped
deriving DecidableEq, Inhabited

inductive Call where
  | connect
  | setSession
  | execute
  | fetchOne
  | fetchAll
deriving DecidableEq, Inhabited

inductive Act where
  | connect (parameters : Fields)
  /-- The session becomes a read-only one with repeatable reads. -/
  | setSession
  /-- A cursor is opened; `named` tells whether its rows have column names. -/
  | cursor (named : Bool)
  | execute (query : String) (parameters : Value)
  | rollback
  | close
deriving Inhabited

structure Note where
  connection : Nat
  act : Act
deriving Inhabited

structure Server where
  links : List Link
  notes : List Note
  /-- For each of the next calls, whether it is refused. -/
  refusals : Call → List Bool
  /-- What the next exports of a snapshot give. -/
  exports : List Value
  rows : List (String × Value)

namespace Server

def start (exports : List Value) (rows : List (String × Value)) : Server :=
  ⟨[], [], fun _ => [], exports, rows⟩

def isUsable (s : Server) (connection : Nat) : Bool :=
  s.links[connection]? == some .usable

def refuseNext (s : Server) (call : Call) : Server :=
  { s with refusals := fun c => if c = call then true :: (s.refusals c).tail else s.refusals c }

def drop (s : Server) (connection : Nat) : Server :=
  { s with links := s.links.set connection .dropped }

end Server

/-- What goes on between a client and the server may fail on the way; what has
taken effect stays. -/
abbrev Run (σ : Type) := ExceptT Fault (StateM σ)

def Run.outcome (x : Run σ α) : Run σ (Except Fault α) := fun s =>
  let (result, s) := x.run.run s
  (.ok result, s)

namespace Server

def note (connection : Nat) (act : Act) : Run Server Unit :=
  modify fun s => { s with notes := s.notes ++ [⟨connection, act⟩] }

/-- Makes a call, which the server may refuse. -/
def attempt (call : Call) : Run Server Unit := do
  let s ← get
  match s.refusals call with
  | [] => return ()
  | refused :: later =>
    set { s with refusals := fun c => if c = call then later else s.refusals c }
    if refused then throw .refused

def connect (parameters : Fields) : Run Server Nat := do
  attempt .connect
  let n := (← get).links.length
  modify fun s => { s with links := s.links ++ [.usable] }
  note n (.connect parameters)
  return n

def setSession (connection : Nat) : Run Server Unit := do
  attempt .setSession
  note connection .setSession

def cursor (connection : Nat) (named : Bool) : Run Server Unit :=
  note connection (.cursor named)

def execute (connection : Nat) (query : String) (parameters : Value) : Run Server Unit := do
  attempt .execute
  note connection (.execute query parameters)

def anySnapshot : Value := .text "snap"

def exported : Run Server Value := do
  attempt .fetchOne
  let s ← get
  match s.exports with
  | [] => return anySnapshot
  | snapshot :: later =>
    set { s with exports := later }
    return snapshot

def fetchAll (query : String) : Run Server Value := do
  attempt .fetchAll
  return ((← get).rows.lookup query).getD (.list [])

def rollback (connection : Nat) : Run Server Unit :=
  note connection .rollback

def close (connection : Nat) : Run Server Unit := do
  modify fun s => { s with links := s.links.set connection .closed }
  note connection .close

end Server

end CatalogPlan.Snapshot
