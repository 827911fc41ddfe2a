/-
# Jobs whose every answer is in their payload

A canned job says in its payload how its attempt ends and what it answers afterwards, which
makes every path of a runner easy to walk in a rehearsal.

* `Canned.decoder`: such a payload as behaviour;
* `Canned.plain`: a job that always fails with a transient error and answers as a job does that
  says nothing of its own.
-/
import Backlog.Backoff.Codec
import Backlog.Json.Reader
import Backlog.Work

namespace Backlog

/-- How a canned job behaves. -/
structure Canned where
  outcome : String
  text : String := ""
  retryAll : Bool := false
  saved : Option String := none
  saveFails : Bool := false
  backoff : Option Backoff := none
  failureHookPanics : Bool := false

namespace Canned

/-- The key under which canned jobs are registered. -/
def factory : String := "Custom"

/-- The journal in which canned jobs leave their notes. -/
def journal : String := "custom"

def ofJson? (j : Json) : Option Canned := do
  let m ← j.members?
    ["outcome", "text", "retry_all", "serialize", "serialize_fails", "backoff",
      "failure_hook_panics"]
  let outcome ← m.required "outcome" Json.text?
  let text ← m.defaulted "text" "" Json.text?
  let retryAll ← m.defaulted "retry_all" false Json.bool?
  let saved ← m.defaulted "serialize" none (Json.nullable? Json.text?)
  let saveFails ← m.defaulted "serialize_fails" false Json.bool?
  let backoff ← m.defaulted "backoff" none (Json.nullable? (Backoff.ofJson? 1))
  let failureHookPanics ← m.defaulted "failure_hook_panics" false Json.bool?
  pure { outcome, text, retryAll, saved, saveFails, backoff, failureHookPanics }

/-- How the attempt ends. -/
def ending (c : Canned) : Ending :=
  match c.outcome with
  | "ok" => .finished
  | "transient" => .raised (.transient c.text)
  | "permanent" => .raised (.permanent c.text)
  | "defect" => .raised (.defect c.text)
  | "unknown_factory" => .raised (.unknownFactory c.text)
  | "other" => .raised (.other c.text)
  | "serialization" => .raised .serialization
  | _ => .panicked

def behaviour (p : Parameters) (c : Canned) : Behaviour :=
  { attempt := { opening := [⟨journal, .ran p.id p.attempt⟩], ending := c.ending }
    fresh :=
      { shouldRetry := fun e => c.retryAll || e.isTransient
        saved :=
          if c.saveFails then .error (.permanent "cannot serialize")
          else .ok (c.saved.map String.toUTF8)
        backoff := c.backoff
        onFailure := { notes := [⟨journal, .failureHook p.id⟩], panics := c.failureHookPanics } } }

def decoder : Decoder := fun p payload =>
  match (Json.ofBytes? payload).bind ofJson? with
  | some c => .ok (behaviour p c)
  | none => .error .serialization

/-- A job that always fails with a transient error. -/
def plain : Decoder := fun _ _ => .ok { attempt := { ending := .raised (.transient "plain") } }

end Canned

end Backlog
