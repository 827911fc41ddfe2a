/-
# What can be wrong with a configuration

* `Flaw`: a value that makes no sense;
* `ConfigError`: everything that keeps a file of settings or of jobs from being used;
* `Flaw.message`, `ConfigError.message`: their texts.
-/

namespace Backlog

/-- A value that makes no sense. -/
inductive Flaw
  | noWorkers
  | noPollInterval
  | multiplierBelowOne
  | jitterOutOfRange
  /-- The job, by its id or else by its factory key, may not be attempted at all. -/
  | noAttempts (job : String)
  | duplicateId (id : String)
  | dependsOnItself (id : String)
  | duplicateDependency (job dependency : String)
  /-- The jobs that wait on each other in a circle, or on such a circle, in order. -/
  | cycle (ids : List String)
deriving DecidableEq, Repr

def Flaw.message : Flaw → String
  | noWorkers => "max_workers cannot be zero"
  | noPollInterval => "poll_interval_ms cannot be zero"
  | multiplierBelowOne => "default_backoff.multiplier must be at least 1"
  | jitterOutOfRange => "default_backoff.jitter must be between 0 and 1"
  | noAttempts job => s!"job '{job}' has max_attempts of zero"
  | duplicateId id => s!"duplicate job id: {id}"
  | dependsOnItself id => s!"job '{id}' cannot depend on itself"
  | duplicateDependency job dependency => s!"job '{job}' has duplicate dependency '{dependency}'"
  | cycle ids => "dependency cycle detected involving jobs: " ++ ", ".intercalate ids

/-- Everything that keeps a file of settings or of jobs from being used. -/
inductive ConfigError
  /-- The file cannot be read. -/
  | unreadable (reason : String)
  /-- The text is no YAML, or not of the form that is asked for. -/
  | malformed
  /-- The payload of a job has no JSON form. -/
  | payload (job : String)
  | invalid (flaw : Flaw)
  | missing (field : String)
deriving DecidableEq, Repr

/-- The text of an error.  What exactly is wrong with a text is left open. -/
def ConfigError.message : ConfigError → String
  | unreadable reason => s!"failed to read file: {reason}"
  | malformed => "YAML parse error"
  | payload job => s!"payload error in job '{job}'"
  | invalid flaw => s!"invalid configuration: {flaw.message}"
  | missing field => s!"missing required field: {field}"

end Backlog
