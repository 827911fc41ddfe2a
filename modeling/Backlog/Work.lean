/-
# What a job does when it runs

A decoder turns a job's parameters and payload into a `Behaviour`: what one attempt does, how
it ends, and what the job answers when it is asked what to do next.  A behaviour is data, so
everything else can be said without running anything.

* `Attempt`, `Hooks`, `Behaviour`: one attempt, and the questions a job answers before and
  after it;
* `Behaviour.outcome`: how the attempt is classed.  A defect is fatal whatever the job would
  say, and any other error is a failure unless the job asks for a retry
  (`outcome_of_error`);
* `Registry`: the decoders by factory key.
-/
import Backlog.Backoff
import Backlog.Job
import Backlog.Text.Quoted

namespace Backlog

/-! ## 1. Errors and outcomes -/

/-- Errors raised by jobs and by decoders. -/
inductive WorkError
  /-- A condition that is expected to pass. -/
  | transient (text : String)
  /-- A condition that trying again cannot mend. -/
  | permanent (text : String)
  /-- A defect of the job's code. -/
  | defect (text : String)
  /-- No decoder is registered under this key. -/
  | unknownFactory (key : String)
  /-- The payload cannot be encoded or decoded. -/
  | serialization
  | other (text : String)
deriving DecidableEq, Repr

namespace WorkError

/-- The text of an error.  What exactly is wrong with a payload is left open. -/
def message : WorkError → String
  | transient text => s!"transient error: {text}"
  | permanent text => s!"permanent error: {text}"
  | defect text => s!"defect: {text}"
  | unknownFactory key => s!"no factory registered for key: {key}"
  | serialization => "serialization error"
  | other text => text

def isTransient : WorkError → Bool
  | transient _ => true
  | _ => false

def isDefect : WorkError → Bool
  | defect _ => true
  | _ => false

end WorkError

/-- How an attempt is classed. -/
inductive Outcome
  /-- The work is done and the job is to be deleted. -/
  | success
  /-- The job is to be tried again later. -/
  | retry
  /-- The job is given up. -/
  | failure
  /-- The job is given up because of a defect. -/
  | fatalFailure
deriving DecidableEq, Repr

namespace Outcome

/-- Whether the job is deleted. -/
def isTerminal : Outcome → Bool
  | retry => false
  | _ => true

/-- Whether the job is given up. -/
def isFailure : Outcome → Bool
  | failure | fatalFailure => true
  | _ => false

end Outcome

/-! ## 2. Behaviour -/

/-- What a job leaves in a journal while it runs. -/
inductive Entry
  /-- An attempt began; attempts are counted from 0. -/
  | ran (job : JobId) (attempt : Int32)
  /-- The attempt went on after a pause. -/
  | woke (job : JobId)
  /-- The job was told that it is given up. -/
  | failureHook (job : JobId)
deriving DecidableEq, Repr

/-- An entry with the name of the journal it is in. -/
structure Note where
  journal : String
  entry : Entry
deriving DecidableEq, Repr

/-- How an attempt ends. -/
inductive Ending
  | finished
  | raised (error : WorkError)
  /-- The job's code broke off. -/
  | panicked
deriving DecidableEq, Repr

/-- One attempt: what is noted when it begins, how many milliseconds it pauses, what is noted
after that, and how it ends. -/
structure Attempt where
  opening : List Note := []
  pause : UInt64 := 0
  closing : List Note := []
  ending : Ending
deriving DecidableEq

/-- What a job does when it is told that it is given up. -/
structure FailureHook where
  notes : List Note := []
  panics : Bool := false
deriving DecidableEq

/-- What a job answers when it is asked what to do next. -/
structure Hooks where
  /-- Whether an error other than a defect calls for another attempt. -/
  shouldRetry : WorkError → Bool := WorkError.isTransient
  /-- The payload to keep for the next attempt; none keeps the one that is stored. -/
  saved : Except WorkError (Option ByteArray) := .ok none
  /-- How long to wait; none leaves it to the runner. -/
  backoff : Option Backoff := none
  onFailure : FailureHook := {}

/-- A decoded job: one attempt, and its answers before and after that attempt. -/
structure Behaviour where
  attempt : Attempt
  fresh : Hooks := {}
  spent : Hooks := fresh

namespace Behaviour

/-- How the attempt is classed; nothing if the code broke off. -/
def outcome (b : Behaviour) : Option Outcome :=
  match b.attempt.ending with
  | .finished => some .success
  | .panicked => none
  | .raised e =>
    if e.isDefect then some .fatalFailure
    else if b.spent.shouldRetry e then some .retry
    else some .failure

theorem outcome_of_error {b : Behaviour} {e : WorkError} (h : b.attempt.ending = .raised e) :
    b.outcome = some .fatalFailure ↔ e.isDefect = true := by
  simp only [outcome, h]
  split
  · next hd => simp [hd]
  · next hd => split <;> simp [hd]

end Behaviour

/-! ## 3. Decoders -/

/-- Turns parameters and a payload into something to run. -/
abbrev Decoder := Parameters → ByteArray → Except WorkError Behaviour

/-- The decoders by factory key. -/
structure Registry where
  decoders : List (String × Decoder) := []

namespace Registry

/-- Registers a decoder in place of any other under its key. -/
def register (r : Registry) (key : String) (d : Decoder) : Registry :=
  ⟨(key, d) :: r.decoders.filter (·.1 != key)⟩

def contains (r : Registry) (key : String) : Bool := (r.decoders.lookup key).isSome

/-- The keys in the order of their code points. -/
def keys (r : Registry) : List String :=
  (r.decoders.map Prod.fst).mergeSort fun a b => decide (a ≤ b)

/-- Decodes a job. -/
def decode (r : Registry) (j : Job) : Except WorkError Behaviour :=
  match r.decoders.lookup j.factory with
  | some d => d j.parameters j.payload
  | none => .error (.unknownFactory j.factory)

/-- A one-line description: the keys, in order. -/
def describe (r : Registry) : String :=
  "JobFactories \x7b keys: [" ++ ", ".intercalate (r.keys.map Text.quoted) ++ "] \x7d"

end Registry

end Backlog
