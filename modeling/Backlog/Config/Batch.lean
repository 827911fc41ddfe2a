/-
# Batches of jobs

A batch lists jobs to submit together.  An entry may give its job an id, by which other entries
can wait on it; a job without one gets a fresh id.

* `BatchEntry`, `Batch`: the entries as they are written;
* `Batch.check`: refuses batches that make no sense.  Entries are checked one after the other,
  then the dependencies of each, and then whether the entries that have ids wait on each other
  in a circle (`Batch.waitGraph`);
* `Batch.submissions`: the jobs of a batch, all created at one time.
-/
import Backlog.Config.Error
import Backlog.Graph
import Backlog.Job
import Backlog.Json.Printer
import Backlog.Yaml.Value

namespace Backlog

/-! ## 1. Entries -/

/-- One job of a batch. -/
structure BatchEntry where
  id? : Option String := none
  factory : String
  queue? : Option String := none
  maxAttempts? : Option Int32 := none
  maxBackoff? : Option Int64 := none
  maxInstances? : Option Int32 := none
  lifespan? : Option Int64 := none
  /-- How long to wait before the first attempt. -/
  delay? : Option Int64 := none
  constraints : List String := []
  dependsOn : List String := []
  payload? : Option Yaml.Value := none

/-- Jobs to submit together. -/
structure Batch where
  entries : List BatchEntry

namespace BatchEntry

/-- What an entry is called in messages: its id, or else its factory key. -/
def label (e : BatchEntry) : String := e.id?.getD e.factory

/-- The first dependency that is wrong: the entry's own id, or one named before. -/
def dependencyFlaw? (e : BatchEntry) : List String → List String → Option Flaw
  | _, [] => none
  | seen, d :: rest =>
    if e.id? = some d then some (.dependsOnItself d)
    else if d ∈ seen then some (.duplicateDependency e.label d)
    else e.dependencyFlaw? (d :: seen) rest

end BatchEntry

/-! ## 2. What makes no sense -/

namespace Batch

/-- The ids that are given, in order. -/
def ids (b : Batch) : List String := b.entries.filterMap BatchEntry.id?

/-- What is wrong with the entries one by one, and with their ids. -/
def entryError? : List String → List BatchEntry → Option ConfigError
  | _, [] => none
  | seen, e :: rest =>
    if e.factory.isEmpty then some (.missing "factory")
    else if e.maxAttempts? = some 0 then some (.invalid (.noAttempts e.label))
    else
      match e.id? with
      | none => entryError? seen rest
      | some id =>
        if id ∈ seen then some (.invalid (.duplicateId id)) else entryError? (id :: seen) rest

/-- The entries that have ids, and their dependencies on each other. -/
def waitGraph (b : Batch) : WaitGraph String :=
  { nodes := b.ids
    edges := b.entries.flatMap fun e =>
      match e.id? with
      | none => []
      | some id => (e.dependsOn.filter b.ids.contains).map fun d => (id, d) }

/-- The circle among the entries, with what waits on it. -/
def cycleFlaw? (b : Batch) : Option Flaw :=
  if b.waitGraph.releasedCount = b.ids.length then none
  else some (.cycle (b.waitGraph.leftovers.mergeSort fun x y => decide (x ≤ y)))

/-- Refuses batches that make no sense; the first thing that is wrong is named. -/
def check (b : Batch) : Except ConfigError Unit :=
  match entryError? [] b.entries with
  | some e => .error e
  | none =>
    match b.entries.findSome? fun e => e.dependencyFlaw? [] e.dependsOn with
    | some flaw => .error (.invalid flaw)
    | none =>
      match b.cycleFlaw? with
      | some flaw => .error (.invalid flaw)
      | none => .ok ()

end Batch

/-! ## 3. Submissions -/

namespace BatchEntry

/-- The payload as JSON text. -/
def payloadBytes? (e : BatchEntry) : Option ByteArray :=
  match e.payload? with
  | none => some .empty
  | some v => v.toJson?.map fun j => j.compact.toUTF8

/-- The job of an entry with its rows.  `fresh` is the id of an entry that has none. -/
def submission (e : BatchEntry) (fresh : JobId) (now : Int64) : Except ConfigError Submission :=
  let id := e.id?.elim fresh JobId.mk
  match e.payloadBytes? with
  | none => .error (.payload id.text)
  | some payload =>
    let plain : Job := { id, factory := e.factory, created := now }
    let job : Job :=
      { plain with
        queue := e.queue?
        due := addClamped now (e.delay?.getD 0)
        maxAttempts := e.maxAttempts?.getD plain.maxAttempts
        maxBackoff := e.maxBackoff?.getD plain.maxBackoff
        maxInstances := e.maxInstances?.getD plain.maxInstances
        lifespan := e.lifespan?.getD plain.lifespan
        payload }
    let guarded := e.constraints.foldl Submission.guardedBy { job }
    .ok (e.dependsOn.foldl (fun s d => s.waitingOn ⟨d⟩) guarded)

end BatchEntry

/-- The jobs of a batch, all created at `now`.  `fresh i` is the id of the entry at place `i`,
if it has none of its own. -/
def Batch.submissions (b : Batch) (fresh : Nat → JobId) (now : Int64) :
    Except ConfigError (List Submission) :=
  b.entries.zipIdx.mapM fun (e, i) => e.submission (fresh i) now

end Backlog
