/-
# A store held in a relational database

`Database` keeps the three tables as relations: sets of keyed rows, read back in an order
that the query states and changed one statement at a time.  A job's key is one more than the
largest key in use; guards and edges count their keys up and never use one twice.  A write of
several statements is a transaction: the first failing statement undoes the whole of it.

* `Statement`, `Statement.run`: the statements and what each does to the relations;
* `Database.snapshot`: the three queries of a bulk read;
* `Connection`: a database that can be closed, after which every call fails, and that may be
  there to be read only.
-/
import Backlog.Store

namespace Backlog

/-! ## 1. Relations -/

/-- A row with its key. -/
structure Keyed (α : Type) where
  key : Nat
  value : α
deriving DecidableEq

/-- Three relations, and the next key of the two that count their keys up. -/
structure Database where
  jobs : List (Keyed Job) := []
  guards : List (Keyed Guard) := []
  edges : List (Keyed Edge) := []
  nextGuard : Nat := 1
  nextEdge : Nat := 1
deriving DecidableEq

namespace Database

/-- The key of the next job: one more than the largest in use. -/
def nextJob (db : Database) : Nat := (db.jobs.map Keyed.key).foldl max 0 + 1

/-- The values of a relation in the order of their keys. -/
def byKey {α : Type} (rows : List (Keyed α)) : List α :=
  (rows.mergeSort fun a b => decide (a.key ≤ b.key)).map Keyed.value

/-- Whether `a` comes before `b` by creation time and then by key. -/
def precedes (a b : Keyed Job) : Bool :=
  decide (a.value.created < b.value.created ∨
    (a.value.created = b.value.created ∧ a.key ≤ b.key))

/-- Everything in the database: jobs by creation time and then by key, rows by key. -/
def snapshot (db : Database) : Snapshot :=
  { jobs := (db.jobs.mergeSort precedes).map Keyed.value
    guards := byKey db.guards
    edges := byKey db.edges }

end Database

/-! ## 2. Statements -/

/-- One statement of a transaction. -/
inductive Statement
  | insertJob (j : Job)
  | insertGuard (g : Guard)
  | insertEdge (e : Edge)
  | updateJob (id : JobId) (f : Job → Job)
  | updateEveryJob (f : Job → Job)
  | deleteJob (id : JobId)
  | deleteGuardsOf (id : JobId)
  | deleteEdgesAt (id : JobId)

namespace Statement

/-- What a statement does to the relations.  Inserting a job fails if its id is taken; no
other statement fails. -/
def run (db : Database) : Statement → Except StoreError Database
  | insertJob j =>
    if db.jobs.any (·.value.id == j.id) then .error (.duplicate j.id)
    else .ok { db with jobs := ⟨db.nextJob, j⟩ :: db.jobs }
  | insertGuard g =>
    .ok { db with guards := ⟨db.nextGuard, g⟩ :: db.guards, nextGuard := db.nextGuard + 1 }
  | insertEdge e =>
    .ok { db with edges := ⟨db.nextEdge, e⟩ :: db.edges, nextEdge := db.nextEdge + 1 }
  | updateJob id f =>
    .ok { db with
      jobs := db.jobs.map fun r => if r.value.id = id then { r with value := f r.value } else r }
  | updateEveryJob f =>
    .ok { db with jobs := db.jobs.map fun r => { r with value := f r.value } }
  | deleteJob id => .ok { db with jobs := db.jobs.filter fun r => r.value.id != id }
  | deleteGuardsOf id => .ok { db with guards := db.guards.filter fun r => r.value.job != id }
  | deleteEdgesAt id =>
    .ok { db with edges := db.edges.filter fun r => r.value.job != id && r.value.waitsOn != id }

/-- Runs the statements one after the other.  An error carries no database: what the earlier
statements did is undone. -/
def transaction (statements : List Statement) (db : Database) : Except StoreError Database :=
  statements.foldlM run db

end Statement

/-! ## 3. The writes of a store -/

namespace Database

open Statement

/-- The statements that insert one submission: the job, then its guards, then its edges. -/
def insertStatements (s : Submission) : List Statement :=
  insertJob s.job :: (s.guards.map insertGuard ++ s.edges.map insertEdge)

/-- The statements that delete one job. -/
def deleteStatements (id : JobId) : List Statement :=
  [deleteJob id, deleteGuardsOf id, deleteEdgesAt id]

/-- Updates one job, which has to be stored. -/
def update (id : JobId) (f : Job → Job) (db : Database) : Except StoreError Database :=
  if db.jobs.any (·.value.id == id) then (updateJob id f).run db else .error (.notFound id)

instance : Storage Database where
  load db := .ok db.snapshot
  insert batch := transaction (batch.flatMap insertStatements)
  setRunning id running := update id fun j => { j with running }
  reschedule id running attempt due payload :=
    update id fun j => j.rescheduled running attempt due payload
  clearRunning := transaction [updateEveryJob fun j => { j with running := false }]
  amend jobs := transaction (jobs.map fun j => updateJob j.id fun _ => j)
  delete ids := transaction (ids.flatMap deleteStatements)

end Database

/-! ## 4. Connections -/

/-- A database that can be closed, and that may be there to be read only. -/
structure Connection where
  database : Database := {}
  readOnly : Bool := false
  closed : Bool := false
deriving DecidableEq

namespace Connection

/-- Passes a write on to the database, unless the connection is closed.  Where the database is
only read, a write that has nothing to write still goes through. -/
def whenOpen (c : Connection) (idle : Bool) (act : Database → Except StoreError Database) :
    Except StoreError Connection :=
  if c.closed || (c.readOnly && !idle) then .error .unavailable
  else (act c.database).map fun db => { c with database := db }

instance : Storage Connection where
  load c := if c.closed then .error .unavailable else Storage.load c.database
  insert batch c := c.whenOpen batch.isEmpty (Storage.insert batch)
  setRunning id running c := c.whenOpen false (Storage.setRunning id running)
  reschedule id running attempt due payload c :=
    c.whenOpen false (Storage.reschedule id running attempt due payload)
  clearRunning c := c.whenOpen false Storage.clearRunning
  amend jobs c := c.whenOpen jobs.isEmpty (Storage.amend jobs)
  delete ids c := c.whenOpen ids.isEmpty (Storage.delete ids)

end Connection

end Backlog
