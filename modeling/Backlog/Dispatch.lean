/-
# Handing jobs to a bounded crew of workers

A dispatcher takes batches in and hands eligible jobs to workers, of which there is a fixed
number.  Each attempt that is in flight holds a `Ticket`; as long as it does, one worker is
busy.

* `Dispatch.enqueue`: stores a batch, unless one of its jobs goes beyond the limit on the jobs
  with its factory key (`overLimit?`);
* `Dispatch.pass`: hands out eligible jobs whose preconditions hold, oldest first, while workers
  are free.  A job whose running flag cannot be written is passed over;
* `Dispatch.launch`, `Dispatch.finish`: the two ends of an attempt.  The ticket is given back
  with the verdict, whatever that is.
-/
import Backlog.Conditions
import Backlog.Runner

namespace Backlog

/-! ## 1. Errors -/

/-- Why a dispatcher turns something down. -/
inductive DispatchError
  /-- There would be more than `limit` jobs with this factory key. -/
  | tooMany (factory : String) (limit : Int32)
  | index (cause : IndexError)
  /-- The dispatcher has stopped. -/
  | closed (command : String)
deriving DecidableEq, Repr

def DispatchError.message : DispatchError → String
  | tooMany factory limit => s!"too many instances of {factory} (max {limit.toInt})"
  | index cause => cause.message
  | closed command => s!"channel error: failed to send {command} command"

/-! ## 2. Dispatchers -/

/-- What an attempt in flight holds: a number of its own, and the job as it was handed out. -/
structure Ticket where
  number : Nat
  job : Job
deriving DecidableEq

/-- A dispatcher: its desk, the attempts in flight, oldest first, and how many there have been
so far. -/
structure Dispatch (σ : Type) where
  desk : Desk σ
  inFlight : List Ticket := []
  issued : Nat := 0

namespace Dispatch

variable {σ : Type}

/-- The jobs in `batch` with a factory key. -/
def countIn (batch : List Submission) (factory : String) : Nat :=
  batch.countP fun s => s.job.factory == factory

/-- The first job of a batch that goes beyond its limit, with the jobs that are stored and those
in front of it: its factory key and the limit.  A negative limit other than "no limit" allows
none. -/
def overLimit? (x : Index σ) : List Submission → List Submission → Option (String × Int32)
  | _, [] => none
  | before, s :: rest =>
    let key := s.job.factory
    let limit := s.job.maxInstances
    let count := x.roster.countOf key + countIn before key + 1
    if limit ≠ unlimited ∧ limit.toInt.toNat < count then some (key, limit)
    else overLimit? x (before ++ [s]) rest

variable [Storage σ]

/-- Stores a batch and announces its jobs, or changes nothing. -/
def enqueue (batch : List Submission) (d : Dispatch σ) : Except DispatchError (Dispatch σ) :=
  match overLimit? d.desk.index [] batch with
  | some (key, limit) => .error (.tooMany key limit)
  | none =>
    match d.desk.index.insert batch with
    | .error cause => .error (.index cause)
    | .ok index =>
      let announced : List Event := batch.map fun s => .enqueued s.id s.job.factory
      .ok { d with desk := { d.desk with index, events := d.desk.events ++ announced } }

/-! ## 3. Handing jobs out -/

/-- Hands out the job, whose running flag has been set in `index`. -/
def issue (d : Dispatch σ) (index : Index σ) (j : Job) : Dispatch σ :=
  { desk := { d.desk with index }
    inFlight := d.inFlight ++ [⟨d.issued, { j with running := true }⟩]
    issued := d.issued + 1 }

/-- Hands out jobs in order.  Those whose preconditions do not hold are passed over, and the
first one that finds no worker free ends it. -/
def handOut (workers : Nat) (c : Conditions) : List Job → Dispatch σ → Dispatch σ
  | [], d => d
  | j :: rest, d =>
    if !(c.unmet (d.desk.index.roster.guards.rowsOf j.id)).isEmpty then handOut workers c rest d
    else if workers ≤ d.inFlight.length then d
    else
      match d.desk.index.setRunning j.id true with
      | .error _ => handOut workers c rest d
      | .ok index => handOut workers c rest (d.issue index j)

/-- Hands out what is eligible now, to at most `workers` workers. -/
def pass (workers : Nat) (now : Int64) (c : Conditions) (d : Dispatch σ) : Dispatch σ :=
  d.handOut workers c (d.desk.index.eligible now)

/-! ## 4. Attempts -/

/-- Takes a ticket back. -/
def collect (d : Dispatch σ) (t : Ticket) : Dispatch σ :=
  { d with inFlight := d.inFlight.filter fun u => u.number ≠ t.number }

/-- The start of an attempt: the behaviour of the job, or a verdict if there is none. -/
def launch (r : Runner) (m : Moment) (t : Ticket) (d : Dispatch σ) :
    (Verdict ⊕ Behaviour) × Dispatch σ :=
  match r.start m t.job d.desk with
  | (.inl verdict, desk) => (.inl verdict, { d with desk }.collect t)
  | (.inr b, desk) => (.inr b, { d with desk })

/-- The end of an attempt. -/
def finish (r : Runner) (m : Moment) (t : Ticket) (b : Behaviour) (d : Dispatch σ) :
    Verdict × Dispatch σ :=
  let (verdict, desk) := r.conclude m t.job b d.desk
  (verdict, { d with desk }.collect t)

end Dispatch

end Backlog
