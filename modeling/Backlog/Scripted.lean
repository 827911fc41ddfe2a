/-
# Jobs that follow a script

A scripted job carries in its payload what it does on each attempt.  Attempt `n` performs step
`n`, and attempts past the end of the script succeed.  Because the script travels with the
payload, a job that is decoded again after a restart goes on where it left off.

* `Step`, `Script`: the steps and their JSON form;
* `Scripted.decoder`: a script as behaviour;
* `Scripted.job`: a job that is allowed one attempt for each step;
* `Journal.runOrder`, `Journal.runsOf`, `Journal.failed`, `Journal.woke`: what a journal tells.
-/
import Backlog.Json.Decode
import Backlog.Json.Printer
import Backlog.Json.Reader
import Backlog.Work

namespace Backlog

/-! ## 1. Steps and scripts -/

/-- What a scripted job does on one attempt. -/
inductive Step
  | succeed
  /-- Pauses, then succeeds. -/
  | succeedAfter (millis : UInt64)
  | transient
  | permanent
  | defect
  | panic
deriving DecidableEq, Repr

namespace Step

def toJson : Step → Json
  | succeed => .object [("type", .string "succeed")]
  | succeedAfter millis =>
    .object [("type", .string "succeed_after"), ("millis", .int millis.toNat)]
  | transient => .object [("type", .string "transient")]
  | permanent => .object [("type", .string "permanent")]
  | defect => .object [("type", .string "defect")]
  | panic => .object [("type", .string "panic")]

/-- The steps without fields, by name. -/
def plain? (tag : String) : Option Step :=
  if tag == "succeed" then some succeed
  else if tag == "transient" then some transient
  else if tag == "permanent" then some permanent
  else if tag == "defect" then some defect
  else if tag == "panic" then some panic
  else none

/-- The step that stands inside `level` arrays and objects. -/
def ofJson? (level : Nat) (j : Json) : Option Step := do
  let (tag, rest) ← j.tagged? level
  if tag == "succeed_after" then
    let m ← rest.members? ["millis"]
    let millis ← m.required "millis" Json.word64?
    pure (succeedAfter millis)
  else
    let step ← plain? tag
    if rest.isFieldless then pure step else none

end Step

/-- The steps of a job, and how long it waits between attempts. -/
structure Script where
  steps : List Step := []
  backoffMillis : UInt64 := 0
deriving DecidableEq, Repr

namespace Script

def toJson (s : Script) : Json :=
  .object
    [("steps", .array (s.steps.map Step.toJson)), ("backoff_ms", .int s.backoffMillis.toNat)]

def ofJson? (j : Json) : Option Script := do
  let m ← j.members? ["steps", "backoff_ms"]
  let steps ← m.required "steps" (Json.list? (Step.ofJson? 2))
  let backoffMillis ← m.defaulted "backoff_ms" 0 Json.word64?
  pure { steps, backoffMillis }

/-- The script in a payload.  An empty payload is read as `null`, and `null` is the script
without steps. -/
def ofPayload? (payload : ByteArray) : Option Script :=
  if payload.isEmpty then some {}
  else ((Json.ofBytes? payload).bind fun j => j.nullable? ofJson?).map (·.getD {})

/-- The step for an attempt, counted from 0. -/
def stepAt (s : Script) (attempt : Int32) : Step :=
  if attempt.toInt < 0 then .succeed else s.steps.getD attempt.toInt.toNat .succeed

end Script

/-! ## 2. Scripts as behaviour -/

namespace Scripted

/-- The key under which scripted jobs are registered. -/
def factory : String := "Scripted"

/-- The journal in which scripted jobs leave their notes. -/
def journal : String := "scripted"

def note (e : Entry) : Note := ⟨journal, e⟩

/-- How an attempt that performs a step ends. -/
def ending : Step → Ending
  | .succeed | .succeedAfter _ => .finished
  | .transient => .raised (.transient "scripted transient error")
  | .permanent => .raised (.permanent "scripted permanent error")
  | .defect => .raised (.defect "scripted defect")
  | .panic => .panicked

/-- One attempt that performs a step. -/
def attempt (p : Parameters) (step : Step) : Attempt :=
  let opening := [note (.ran p.id p.attempt)]
  match step with
  | .succeedAfter millis =>
    { opening, pause := millis, closing := [note (.woke p.id)], ending := .finished }
  | step => { opening, ending := ending step }

/-- A script as behaviour. -/
def behaviour (p : Parameters) (s : Script) : Behaviour :=
  { attempt := attempt p (s.stepAt p.attempt)
    fresh :=
      { backoff := some (.fixed s.backoffMillis)
        onFailure := { notes := [note (.failureHook p.id)] } } }

def decoder : Decoder := fun p payload =>
  match Script.ofPayload? payload with
  | some s => .ok (behaviour p s)
  | none => .error .serialization

/-- A job that follows the steps and is allowed one attempt for each of them, but at least
one. -/
def job (id : JobId) (created : Int64) (steps : List Step) (backoffMillis : UInt64 := 0) : Job :=
  { id, factory, created
    maxAttempts := Int32.ofNat (max steps.length 1)
    payload := (Script.toJson { steps, backoffMillis }).compact.toUTF8 }

/-- A submission of a job that succeeds at once. -/
def succeeding (id : JobId) (created : Int64) : Submission := { job := job id created [.succeed] }

end Scripted

/-! ## 3. Journals -/

/-- Journal entries in the order in which they were made. -/
abbrev Journal := List Entry

namespace Journal

/-- The jobs in the order in which their attempts began. -/
def runOrder (entries : Journal) : List JobId :=
  entries.filterMap fun
    | .ran id _ => some id
    | _ => none

/-- The number of attempts of a job that began. -/
def runsOf (entries : Journal) (id : JobId) : Nat := (runOrder entries).count id

/-- The jobs that were told that they are given up. -/
def failed (entries : Journal) : List JobId :=
  entries.filterMap fun
    | .failureHook id => some id
    | _ => none

/-- Whether an attempt of a job went on after a pause. -/
def woke (entries : Journal) (id : JobId) : Bool := entries.contains (.woke id)

/-- The entries of one journal among notes. -/
def named (name : String) (notes : List Note) : Journal :=
  (notes.filter (·.journal == name)).map Note.entry

end Journal

end Backlog
