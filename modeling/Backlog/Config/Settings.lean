/-
# Settings

What a deployment may set, and what holds where it sets nothing.  Every setting may be left
out; whether one is there can be told from its value, so a setting and its default are kept
apart.

* `Settings`: the settings, each perhaps left out;
* `Settings.store`, `Settings.workers`, and so on: what holds;
* `Settings.check`: refuses settings that make no sense.
-/
import Backlog.Backoff
import Backlog.Config.Error
import Backlog.Roster.Eligibility
import Backlog.Text.Blank

namespace Backlog

/-- Where jobs are stored. -/
inductive StoreChoice
  /-- In memory, so that they are gone with the process. -/
  | memory
  /-- In a database file. -/
  | file (path : String)
deriving DecidableEq, Repr

instance : Inhabited StoreChoice := ⟨.memory⟩

/-- What a deployment may set. -/
structure Settings where
  store? : Option StoreChoice := none
  workers? : Option UInt64 := none
  pollMillis? : Option UInt64 := none
  shutdownMillis? : Option UInt64 := none
  discipline? : Option Discipline := none
  backoff? : Option Backoff := none
  cascade? : Option Bool := none

namespace Settings

/-! ## 1. What holds -/

def store (s : Settings) : StoreChoice := s.store?.getD .memory

/-- How many jobs may run at once. -/
def workers (s : Settings) : UInt64 := s.workers?.getD 4

/-- How long the dispatcher waits before it looks for jobs without being woken. -/
def pollMillis (s : Settings) : UInt64 := s.pollMillis?.getD 1000

/-- How long a shutdown waits for running jobs. -/
def shutdownMillis (s : Settings) : UInt64 := s.shutdownMillis?.getD 30000

def discipline (s : Settings) : Discipline := s.discipline?.getD .runToCompletion

/-- The backoff of jobs that choose none of their own. -/
def backoff (s : Settings) : Backoff := s.backoff?.getD .standard

/-- Whether the dependents of a failed job are deleted with it. -/
def cascade (s : Settings) : Bool := s.cascade?.getD false

/-! ## 2. What makes no sense -/

/-- The first thing that is wrong with a policy.  A multiplier that is not a number is let
pass, but such a jitter is not. -/
def backoffFlaw? : Backoff → Option Flaw
  | .fixed _ => none
  | .exponential _ multiplier _ jitter =>
    if multiplier < 1.0 then some .multiplierBelowOne
    else if 0.0 ≤ jitter && jitter ≤ 1.0 then none
    else some .jitterOutOfRange

/-- Refuses settings that make no sense; the first thing that is wrong is named. -/
def check (s : Settings) : Except ConfigError Unit :=
  let namesStore := match s.store? with
    | some (.file path) => !Text.isBlank path
    | _ => true
  if s.workers? = some 0 then .error (.invalid .noWorkers)
  else if s.pollMillis? = some 0 then .error (.invalid .noPollInterval)
  else if !namesStore then .error (.missing "storage.path")
  else
    match s.backoff?.bind backoffFlaw? with
    | some flaw => .error (.invalid flaw)
    | none => .ok ()

end Settings

end Backlog
