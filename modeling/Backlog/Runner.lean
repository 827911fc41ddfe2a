/-
# Running a job and recording how it went

A runner takes a job that is marked running through one attempt and applies the outcome to the
index:

* success deletes the job;
* a retry counts the attempt and pushes the due time out, unless the attempts are used up;
* a failure, fatal or not, deletes the job, which releases every job that waited on it.  When
  failures cascade, those jobs are deleted too, and each of them is told.

A job that outlived its lifespan or cannot be decoded fails before it runs.

The index, the announcements and the notes so far are one value, the `Desk`.  A run ends in a
`Verdict`: an outcome, a refused write, or a panic in a job's failure hook.  The desk is left
as it was when the run stopped.

* `Runner.start`, `Runner.conclude`: what comes before and after the attempt;
* `Runner.fail`: dropping a job for good;
* `Runner.execute`: the whole of it;
* `Runner.executeWithin`: the same under a time limit.
-/
import Backlog.Event
import Backlog.Index
import Backlog.Work

namespace Backlog

/-! ## 1. The desk -/

/-- What a runner has before it: the index, what was announced and what jobs noted so far. -/
structure Desk (σ : Type) where
  index : Index σ
  events : List Event := []
  notes : List Note := []

namespace Desk

variable {σ : Type}

/-- Announces an event. -/
def emit (d : Desk σ) (e : Event) : Desk σ := { d with events := d.events ++ [e] }

/-- Keeps what a job noted. -/
def jot (d : Desk σ) (notes : List Note) : Desk σ := { d with notes := d.notes ++ notes }

/-- Calls a failure hook; also says whether it returned. -/
def callHook (d : Desk σ) (h : FailureHook) : Desk σ × Bool := (d.jot h.notes, !h.panics)

end Desk

/-- Time and chance, as far as a decision hangs on them. -/
structure Moment where
  now : Int64
  /-- What chance draws, between 0 and 1. -/
  draw : Float := 0.0

/-- How a run ends. -/
inductive Verdict
  | done (outcome : Outcome)
  /-- The outcome could not be written. -/
  | refused (cause : IndexError)
  /-- A failure hook broke off. -/
  | panicked
deriving DecidableEq, Repr

/-- What a runner is set up with. -/
structure Runner where
  registry : Registry
  /-- For jobs that do not choose a policy of their own. -/
  defaultBackoff : Backoff := .standard
  /-- Whether the jobs that wait on a failed job are deleted with it. -/
  cascade : Bool := false

namespace Runner

variable {σ : Type} [Storage σ]

/-! ## 2. Dropping a job for good -/

/-- The stored jobs that wait on `id`, directly or through others, each once. -/
def casualties (x : Index σ) (id : JobId) : List Job :=
  (firstSeen [id] ((x.roster.dependents id).map Edge.job)).filterMap x.roster.get?

/-- Tells each job that it is dropped because `failed` failed, calling the hooks of those that
can be decoded.  A hook that breaks off ends it; the flag says whether all returned. -/
def cancelAll (r : Runner) (failed : JobId) : List Job → Desk σ → Desk σ × Bool
  | [], d => (d, true)
  | j :: rest, d =>
    let (d, returned) :=
      match r.registry.decode j with
      | .ok b => d.callHook b.fresh.onFailure
      | .error _ => (d, true)
    if returned then r.cancelAll failed rest (d.emit (.cancelled j.id failed)) else (d, false)

/-- Drops a job for good.  `live` holds the answers of the job if it is at hand; otherwise it
is decoded again, so that its failure hook still runs. -/
def fail (r : Runner) (j : Job) (live : Option Hooks) (fatal : Bool) (reason : String)
    (outcome : Outcome) (d : Desk σ) : Verdict × Desk σ :=
  let fallen := if r.cascade then casualties d.index j.id else []
  match d.index.delete (j.id :: fallen.map Job.id) with
  | .error cause => (.refused cause, d)
  | .ok index =>
    let d := { d with index }
    let hooks := live.or ((r.registry.decode j).toOption.map Behaviour.fresh)
    let (d, returned) :=
      match hooks with
      | some h => d.callHook h.onFailure
      | none => (d, true)
    if returned then
      let (d, returned) := r.cancelAll j.id fallen (d.emit (.failed j.id fatal reason))
      (if returned then .done outcome else .panicked, d)
    else (.panicked, d)

/-! ## 3. One attempt -/

/-- What comes before the attempt: a verdict if there is none to be made, else the behaviour
of the decoded job. -/
def start (r : Runner) (m : Moment) (j : Job) (d : Desk σ) : (Verdict ⊕ Behaviour) × Desk σ :=
  if j.isExpired m.now then
    let (verdict, d) := r.fail j none false "lifespan expired" .failure d
    (.inl verdict, d)
  else
    match r.registry.decode j with
    | .error e =>
      let (verdict, d) := r.fail j none true e.message .fatalFailure d
      (.inl verdict, d)
    | .ok b => (.inr b, d.emit (.started j.id j.attempt))

/-- Applies a retry: counts the attempt and sets the next due time, or drops the job if its
attempts are used up or its payload cannot be saved. -/
def retry (r : Runner) (m : Moment) (j : Job) (h : Hooks) (d : Desk σ) : Verdict × Desk σ :=
  let attempt := succClamped j.attempt
  if j.isSpent attempt then r.fail j (some h) false "attempts exhausted" .failure d
  else
    match h.saved with
    | .error e => r.fail j (some h) true e.message .fatalFailure d
    | .ok saved =>
      let due := (h.backoff.getD r.defaultBackoff).nextDue m.now attempt j.maxBackoff m.draw
      match d.index.reschedule j.id false attempt due (saved.getD j.payload) with
      | .error cause => (.refused cause, d)
      | .ok index =>
        (.done .retry, { d with index }.emit (.retrying j.id attempt j.maxAttempts due))

/-- Applies the outcome of an attempt. -/
def conclude (r : Runner) (m : Moment) (j : Job) (b : Behaviour) (d : Desk σ) :
    Verdict × Desk σ :=
  match b.outcome with
  | some .success =>
    match d.index.delete [j.id] with
    | .error cause => (.refused cause, d)
    | .ok index => (.done .success, { d with index }.emit (.succeeded j.id))
  | some .retry => r.retry m j b.spent d
  | some .failure => r.fail j (some b.spent) false "job failed" .failure d
  | some .fatalFailure => r.fail j (some b.spent) true "job hit a defect" .fatalFailure d
  | none => r.fail j none true "job panicked" .fatalFailure d

/-- Runs one attempt of a job that is marked running. -/
def execute (r : Runner) (m : Moment) (j : Job) (d : Desk σ) : Verdict × Desk σ :=
  match r.start m j d with
  | (.inl verdict, d) => (verdict, d)
  | (.inr b, d) => r.conclude m j b (d.jot (b.attempt.opening ++ b.attempt.closing))

/-- The same with `limit` milliseconds to go.  An attempt that takes as long is cut off and
leaves the job as it is: no verdict.  With no time at all, not even the first step of the attempt
is made. -/
def executeWithin (r : Runner) (limit : UInt64) (m : Moment) (j : Job) (d : Desk σ) :
    Option Verdict × Desk σ :=
  match r.start m j d with
  | (.inl verdict, d) => (some verdict, d)
  | (.inr b, d) =>
    if b.attempt.pause < limit then
      let (verdict, d) := r.conclude m j b (d.jot (b.attempt.opening ++ b.attempt.closing))
      (some verdict, d)
    else if limit = 0 then (none, d)
    else (none, d.jot b.attempt.opening)

end Runner

end Backlog
