/-
# The index: a store and its roster, kept in step

An index reads its store once and answers every query from the roster afterwards.  Each change
is written to the store first, and the roster follows only if the write succeeded.

* `Index.open`: the index of a store;
* `Index.insert`, `Index.setRunning`, `Index.reschedule`, `Index.clearRunning`,
  `Index.amend`, `Index.delete`: the changes.  Each returns the changed index or the reason
  why nothing changed.
-/
import Backlog.Roster.Eligibility
import Backlog.Roster.Dependents
import Backlog.Roster.Cycle

namespace Backlog

/-- Why a change of the index is turned down. -/
inductive IndexError
  /-- No job with this id is indexed. -/
  | notFound (id : JobId)
  /-- The batch would close a cycle of waiting jobs. -/
  | cycle (id : JobId)
  /-- The store failed. -/
  | store (cause : StoreError)
deriving DecidableEq, Repr

def IndexError.message : IndexError → String
  | notFound id => s!"job not found: {id.text}"
  | cycle id => s!"dependency cycle involving job: {id.text}"
  | store cause => s!"storage error: {cause.message}"

/-- A store, its roster, and how queue heads are chosen. -/
structure Index (σ : Type) where
  store : σ
  roster : Roster
  discipline : Discipline := .runToCompletion

namespace Index

variable {σ : Type} [Storage σ]

/-- Reads the store and builds the index on it. -/
def «open» (store : σ) (discipline : Discipline := .runToCompletion) :
    Except IndexError (Index σ) :=
  match Storage.load store with
  | .ok snapshot => .ok { store, roster := .ofSnapshot snapshot, discipline }
  | .error cause => .error (.store cause)

/-- Writes to the store, and brings the roster up to date if that succeeded. -/
def writeThrough (x : Index σ) (write : σ → Except StoreError σ) (follow : Roster → Roster) :
    Except IndexError (Index σ) :=
  match write x.store with
  | .ok store => .ok { x with store, roster := follow x.roster }
  | .error cause => .error (.store cause)

/-! ## 1. Changes -/

/-- Stores and indexes a batch, unless it would close a cycle or the store refuses it. -/
def insert (x : Index σ) (batch : List Submission) : Except IndexError (Index σ) :=
  match x.roster.cycle? batch with
  | some id => .error (.cycle id)
  | none => x.writeThrough (Storage.insert batch) (·.insert batch)

/-- Sets the running flag of one job. -/
def setRunning (x : Index σ) (id : JobId) (running : Bool) : Except IndexError (Index σ) :=
  match x.roster.get? id with
  | none => .error (.notFound id)
  | some j => x.writeThrough (Storage.setRunning id running) (·.replace { j with running })

/-- Records a retry: running flag, attempts made, due time and payload. -/
def reschedule (x : Index σ) (id : JobId) (running : Bool) (attempt : Int32) (due : Int64)
    (payload : ByteArray) : Except IndexError (Index σ) :=
  match x.roster.get? id with
  | none => .error (.notFound id)
  | some j =>
    x.writeThrough (Storage.reschedule id running attempt due payload)
      (·.replace (j.rescheduled running attempt due payload))

/-- Clears every running flag. -/
def clearRunning (x : Index σ) : Except IndexError (Index σ) :=
  x.writeThrough Storage.clearRunning Roster.clearRunning

/-- Replaces the indexed jobs that share an id with one of `jobs`; unknown ids are passed
over. -/
def amend (x : Index σ) (jobs : List Job) : Except IndexError (Index σ) :=
  let known := jobs.filter fun j => x.roster.contains j.id
  x.writeThrough (Storage.amend known) fun r => known.foldl Roster.replace r

/-- Deletes jobs and releases everything that waited on them. -/
def delete (x : Index σ) (ids : List JobId) : Except IndexError (Index σ) :=
  x.writeThrough (Storage.delete ids) (·.remove ids)

/-! ## 2. Queries -/

/-- All indexed jobs, oldest first. -/
def jobs (x : Index σ) : List Job := oldestFirst x.roster.jobs

/-- The jobs that may be handed out at `now`, oldest first. -/
def eligible (x : Index σ) (now : Int64) : List Job := x.roster.eligible now x.discipline

/-- All indexed jobs with their rows, oldest first. -/
def submissions (x : Index σ) : List Submission :=
  x.jobs.filterMap fun j => x.roster.submission? j.id

end Index

end Backlog
