/-
# What is announced about a job

Every change in the life of a job is announced as an `Event`.  Listeners are told in the order
in which they registered.

* `Event`, `Event.job`: the announcements, and the job each is about;
* `Event.isTerminal`: whether nothing more is to come about that job;
* `deliver`: who is told what.
-/
import Backlog.Job

namespace Backlog

inductive Event
  /-- A batch with this job was stored. -/
  | enqueued (job : JobId) (factory : String)
  /-- The job was handed to a worker for the attempt with this number, counted from 0. -/
  | started (job : JobId) (attempt : Int32)
  /-- The job finished its work and was deleted. -/
  | succeeded (job : JobId)
  /-- The job will run again once `due` has come; `attempt` attempts were made so far. -/
  | retrying (job : JobId) (attempt : Int32) (maxAttempts : Int32) (due : Int64)
  /-- The job was given up; `fatal` tells a defect from a decision of its own. -/
  | failed (job : JobId) (fatal : Bool) (reason : String)
  /-- The job was dropped because another one, on which it waited, failed. -/
  | cancelled (job : JobId) (failedJob : JobId)
deriving DecidableEq, Repr

namespace Event

/-- The job an event is about. -/
def job : Event → JobId
  | enqueued j _ | started j _ | succeeded j | retrying j _ _ _ | failed j _ _ | cancelled j _ => j

/-- Whether the job is gone for good. -/
def isTerminal : Event → Bool
  | succeeded _ | failed _ _ _ | cancelled _ _ => true
  | _ => false

/-- The deliveries of one event to listeners numbered from 0: each is told once, in the order
of registration. -/
def deliver (listeners : Nat) (e : Event) : List (Nat × Event) :=
  (List.range listeners).map (·, e)

end Event

end Backlog
