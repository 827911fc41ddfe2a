/-
# Settings and batches as JSON

* `Discipline.toJson`, `StoreChoice.toJson`, `Settings.toJson`, `Batch.toJson`, each with its
  reader `ofJson?`.  Every setting may be left out, and the others are `null` where they are
  not set.
-/
import Backlog.Backoff.Codec
import Backlog.Config.Batch
import Backlog.Config.Settings

namespace Backlog

/-! ## 1. Choices -/

namespace Discipline

def name : Discipline → String
  | runToCompletion => "run_to_completion"
  | pipelined => "pipelined"

def ofName? (s : String) : Option Discipline :=
  if s == "run_to_completion" then some runToCompletion
  else if s == "pipelined" then some pipelined
  else none

def toJson (d : Discipline) : Json := .string d.name

/-- A name, by itself or as the only member of an object, which then is `null`. -/
def ofJson? : Json → Option Discipline
  | .string s => ofName? s
  | .object [(s, .null)] => ofName? s
  | _ => none

end Discipline

namespace StoreChoice

def toJson : StoreChoice → Json
  | memory => .object [("type", .string "memory")]
  | file path => .object [("type", .string "sqlite"), ("path", .string path)]

/-- The choice of a kind, with its fields. -/
def ofFields? (kind : String) (fields : Fields) : Option StoreChoice :=
  if kind == "memory" then if fields.isFieldless then some memory else none
  else if kind == "sqlite" then do
    let m ← fields.members? ["path"]
    file <$> m.required "path" Json.text?
  else none

/-- The choice that stands inside `level` arrays and objects. -/
def ofJson? (level : Nat) (j : Json) : Option StoreChoice := do
  let (kind, fields) ← j.tagged? level
  ofFields? kind fields

end StoreChoice

/-! ## 2. Settings -/

namespace Settings

/-- The names of the settings, in order. -/
def fieldNames : List String :=
  ["storage", "max_workers", "poll_interval_ms", "shutdown_timeout_ms", "queue_ordering",
    "default_backoff", "cascade_failures"]

def toJson (s : Settings) : Json :=
  let word (w : UInt64) : Json := .int w.toNat
  .object
    [("storage", .ofOption StoreChoice.toJson s.store?),
      ("max_workers", .ofOption word s.workers?),
      ("poll_interval_ms", .ofOption word s.pollMillis?),
      ("shutdown_timeout_ms", .ofOption word s.shutdownMillis?),
      ("queue_ordering", .ofOption Discipline.toJson s.discipline?),
      ("default_backoff", .ofOption Backoff.toJson s.backoff?),
      ("cascade_failures", .ofOption .bool s.cascade?)]

def ofJson? (j : Json) : Option Settings := do
  let m ← j.members? fieldNames
  let setting {α : Type} (name : String) (f : Json → Option α) : Option (Option α) :=
    m.defaulted name none (Json.nullable? f)
  pure
    { store? := ← setting "storage" (StoreChoice.ofJson? 1)
      workers? := ← setting "max_workers" Json.word64?
      pollMillis? := ← setting "poll_interval_ms" Json.word64?
      shutdownMillis? := ← setting "shutdown_timeout_ms" Json.word64?
      discipline? := ← setting "queue_ordering" Discipline.ofJson?
      backoff? := ← setting "default_backoff" (Backoff.ofJson? 1)
      cascade? := ← setting "cascade_failures" Json.bool? }

end Settings

/-! ## 3. Batches -/

namespace BatchEntry

/-- The names of the fields, in order. -/
def fieldNames : List String :=
  ["id", "factory", "queue", "max_attempts", "max_backoff_ms", "max_instances", "lifespan_ms",
    "delay_ms", "constraints", "depends_on", "data"]

def toJson (e : BatchEntry) : Json :=
  .object
    [("id", .ofOption .string e.id?),
      ("factory", .string e.factory),
      ("queue", .ofOption .string e.queue?),
      ("max_attempts", .ofOption (fun n => .int n.toInt) e.maxAttempts?),
      ("max_backoff_ms", .ofOption (fun n => .int n.toInt) e.maxBackoff?),
      ("max_instances", .ofOption (fun n => .int n.toInt) e.maxInstances?),
      ("lifespan_ms", .ofOption (fun n => .int n.toInt) e.lifespan?),
      ("delay_ms", .ofOption (fun n => .int n.toInt) e.delay?),
      ("constraints", .array (e.constraints.map .string)),
      ("depends_on", .array (e.dependsOn.map .string)),
      ("data", (e.payload?.bind Yaml.Value.toJson?).getD .null)]

/-- The value of a payload that stands inside `level` arrays and objects. -/
def payloadOfJson? (level : Nat) (j : Json) : Option Yaml.Value :=
  if j.keepable level then Yaml.Value.ofJson? j else none

def ofJson? (j : Json) : Option BatchEntry := do
  let m ← j.members? fieldNames
  pure
    { id? := ← m.optional "id" Json.text?
      factory := ← m.required "factory" Json.text?
      queue? := ← m.optional "queue" Json.text?
      maxAttempts? := ← m.optional "max_attempts" Json.int32?
      maxBackoff? := ← m.optional "max_backoff_ms" Json.int64?
      maxInstances? := ← m.optional "max_instances" Json.int32?
      lifespan? := ← m.optional "lifespan_ms" Json.int64?
      delay? := ← m.optional "delay_ms" Json.int64?
      constraints := ← m.defaulted "constraints" [] (Json.list? Json.text?)
      dependsOn := ← m.defaulted "depends_on" [] (Json.list? Json.text?)
      payload? := ← m.optional "data" (payloadOfJson? 3) }

end BatchEntry

namespace Batch

def toJson (b : Batch) : Json := .object [("jobs", .array (b.entries.map BatchEntry.toJson))]

def ofJson? (j : Json) : Option Batch := do
  let m ← j.members? ["jobs"]
  pure { entries := ← m.required "jobs" (Json.list? BatchEntry.ofJson?) }

end Batch

end Backlog
