import CatalogPlan.Record
import CatalogPlan.Snapshot.Server

/-!
# Reading a catalog in one snapshot

A leader connection exports its snapshot; every thread has a worker connection
of its own that imports it before its first query. Closing the reader ends all
of them.
-/

namespace CatalogPlan.Snapshot

/-- A reader with its connections: the leader of the database, the leader that
exported the snapshot, the snapshot, all workers, and the worker of each
thread. -/
structure Reader where
  parameters : Fields
  queries : List (Kind × String)
  leader : Option Nat
  exporter : Option Nat
  snapshot : Option Value
  workers : List Nat
  threads : List (String × Nat)
deriving Inhabited

structure Session where
  server : Server
  reader : Reader

def exportQuery : String := "SELECT pg_export_snapshot()"

def importQuery : String := "SET TRANSACTION SNAPSHOT %s"

namespace Reader

def readQueries : List (String × String) → Except Fault (List (Kind × String))
  | given => given.foldlM add []
where
  add (queries : List (Kind × String)) (entry : String × String) :
      Except Fault (List (Kind × String)) :=
    match Kind.ofName? entry.1 with
    | none => .error (.unknownKind (.text entry.1))
    | some kind =>
      if queries.any (·.1 == kind) then
        .ok (queries.map fun (known, query) => if known = kind then (known, entry.2) else (known, query))
      else .ok (queries ++ [(kind, entry.2)])

def start (parameters : Fields) (queries : List (Kind × String)) : Reader :=
  ⟨parameters, queries, none, none, none, [], []⟩

def kinds (r : Reader) : List Kind :=
  r.queries.map (·.1)

def setThread (r : Reader) (thread : String) (connection : Nat) : Reader :=
  { r with threads := (thread, connection) :: r.threads.filter (·.1 != thread) }

end Reader

namespace Session

def onServer (x : Run Server α) : Run Session α := fun s =>
  let (result, server) := x.run.run s.server
  (result, { s with server })

def changeReader (f : Reader → Reader) : Run Session Unit :=
  modify fun s => { s with reader := f s.reader }

def isUsable (connection : Nat) : Run Session Bool := do
  return (← get).server.isUsable connection

def newConnection : Run Session Nat := do
  onServer (Server.connect (← get).reader.parameters)

/-- The leader connection, opened again if it can no longer be used. -/
def connect : Run Session Nat := do
  match (← get).reader.leader with
  | some n => if ← isUsable n then return n else reopen
  | none => reopen
where
  reopen : Run Session Nat := do
    let n ← newConnection
    changeReader fun r => { r with leader := some n }
    return n

def disconnect : Run Session Unit := do
  if let some n := (← get).reader.leader then
    if ← isUsable n then
      onServer (Server.close n)
      changeReader fun r => { r with leader := none }

def open_ : Run Session Unit := do
  let n ← connect
  changeReader fun r => { r with exporter := some n }
  onServer (Server.setSession n)
  onServer (Server.cursor n false)
  onServer (Server.execute n exportQuery .null)
  let snapshot ← onServer Server.exported
  changeReader fun r => { r with snapshot := if snapshot matches .null then none else some snapshot }

/-- The worker of a thread, opened if the thread has none that can be used. It
belongs to the reader from the moment it is opened, and to the thread once it
has imported the snapshot. -/
def worker (thread : String) : Run Session Nat := do
  match (← get).reader.threads.lookup thread with
  | some n => if ← isUsable n then return n else reopen
  | none => reopen
where
  reopen : Run Session Nat := do
    match (← get).reader.snapshot with
    | none => throw .notOpen
    | some snapshot =>
      let n ← newConnection
      changeReader fun r => { r with workers := r.workers ++ [n] }
      onServer (Server.setSession n)
      onServer (Server.cursor n false)
      onServer (Server.execute n importQuery (.list [snapshot]))
      changeReader fun r => r.setThread thread n
      return n

def fetch (thread : String) (kind : Kind) (schemas : Value) : Run Session (List Value) := do
  match (← get).reader.queries.lookup kind with
  | none => throw (.noQuery kind)
  | some query =>
    let n ← worker thread
    onServer (Server.cursor n true)
    let schemas ← Object.readMembers schemas
    onServer (Server.execute n query (.object [("schemas", .list schemas)]))
    let rows ← Object.readMembers (← onServer (Server.fetchAll query))
    rows.mapM fun row => do return .object (← Object.readFields row)

def endWorker (n : Nat) : Run Session Unit := do
  if ← isUsable n then
    onServer (Server.rollback n)
    onServer (Server.close n)

def close : Run Session Unit := do
  let workers := (← get).reader.workers
  changeReader fun r => { r with workers := [] }
  workers.forM endWorker
  if let some n := (← get).reader.exporter then
    if ← isUsable n then onServer (Server.rollback n)
  disconnect
  changeReader fun r => { r with exporter := none, snapshot := none }

/-- Does something with the reader open, and closes it whatever comes of that. A
reader that cannot be opened is left as it is. -/
def whileOpen (x : Run Session α) : Run Session α := do
  open_
  let result ← Run.outcome x
  close
  result

end Session

end CatalogPlan.Snapshot
