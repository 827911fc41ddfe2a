/-
# Jobs and rows as JSON

The JSON form of each record names every field.  An absent queue is `null`, and the payload is
an array of bytes.

* `JobId.toJson`, `Guard.toJson`, `Edge.toJson`, `Job.toJson`, `Submission.toJson`, each with
  its reader `ofJson?`.
-/
import Backlog.Job
import Backlog.Json.Decode

namespace Backlog

/-! ## 1. Ids -/

def JobId.toJson (id : JobId) : Json := .string id.text

def JobId.ofJson? (j : Json) : Option JobId := j.text?.map JobId.mk

/-! ## 2. Rows -/

def Guard.toJson (g : Guard) : Json :=
  .object [("job_id", g.job.toJson), ("factory_key", .string g.name)]

def Guard.ofJson? (j : Json) : Option Guard := do
  let m ← j.members? ["job_id", "factory_key"]
  let job ← m.required "job_id" JobId.ofJson?
  let name ← m.required "factory_key" Json.text?
  pure { job, name }

def Edge.toJson (e : Edge) : Json :=
  .object [("job_id", e.job.toJson), ("depends_on_job_id", e.waitsOn.toJson)]

def Edge.ofJson? (j : Json) : Option Edge := do
  let m ← j.members? ["job_id", "depends_on_job_id"]
  let job ← m.required "job_id" JobId.ofJson?
  let waitsOn ← m.required "depends_on_job_id" JobId.ofJson?
  pure { job, waitsOn }

/-! ## 3. Jobs -/

/-- A payload as the array of its bytes. -/
def payloadToJson (payload : ByteArray) : Json :=
  .array (payload.data.toList.map fun b => .int b.toNat)

def payloadOfJson? (j : Json) : Option ByteArray :=
  (j.list? Json.byte?).map fun bytes => ⟨bytes.toArray⟩

namespace Job

/-- The names of the fields, in order. -/
def fieldNames : List String :=
  ["id", "factory_key", "queue_key", "create_time", "next_run_attempt_time", "run_attempt",
    "max_attempts", "max_backoff", "max_instances", "lifespan", "serialized_data", "is_running"]

def toJson (j : Job) : Json :=
  .object
    [("id", j.id.toJson),
      ("factory_key", .string j.factory),
      ("queue_key", .ofOption .string j.queue),
      ("create_time", .int j.created.toInt),
      ("next_run_attempt_time", .int j.due.toInt),
      ("run_attempt", .int j.attempt.toInt),
      ("max_attempts", .int j.maxAttempts.toInt),
      ("max_backoff", .int j.maxBackoff.toInt),
      ("max_instances", .int j.maxInstances.toInt),
      ("lifespan", .int j.lifespan.toInt),
      ("serialized_data", payloadToJson j.payload),
      ("is_running", .bool j.running)]

def ofJson? (j : Json) : Option Job := do
  let m ← j.members? fieldNames
  let id ← m.required "id" JobId.ofJson?
  let factory ← m.required "factory_key" Json.text?
  let queue ← m.optional "queue_key" Json.text?
  let created ← m.required "create_time" Json.int64?
  let due ← m.required "next_run_attempt_time" Json.int64?
  let attempt ← m.required "run_attempt" Json.int32?
  let maxAttempts ← m.required "max_attempts" Json.int32?
  let maxBackoff ← m.required "max_backoff" Json.int64?
  let maxInstances ← m.required "max_instances" Json.int32?
  let lifespan ← m.required "lifespan" Json.int64?
  let payload ← m.required "serialized_data" payloadOfJson?
  let running ← m.required "is_running" Json.bool?
  pure { id, factory, queue, created, due, attempt, maxAttempts, maxBackoff, maxInstances,
         lifespan, payload, running }

end Job

/-! ## 4. Submissions -/

def Submission.toJson (s : Submission) : Json :=
  .object
    [("job_spec", s.job.toJson),
      ("constraint_specs", .array (s.guards.map Guard.toJson)),
      ("dependency_specs", .array (s.edges.map Edge.toJson))]

def Submission.ofJson? (j : Json) : Option Submission := do
  let m ← j.members? ["job_spec", "constraint_specs", "dependency_specs"]
  let job ← m.required "job_spec" Job.ofJson?
  let guards ← m.required "constraint_specs" (Json.list? Guard.ofJson?)
  let edges ← m.required "dependency_specs" (Json.list? Edge.ofJson?)
  pure { job, guards, edges }

end Backlog
