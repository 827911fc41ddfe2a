/-
# Settings and batches in YAML documents

* `Settings.ofText`, `Batch.ofText`: what a text says, if it makes sense.
-/
import Backlog.Config.Codec
import Backlog.Yaml.Decode
import Backlog.Yaml.Node.Grammar

namespace Backlog

open Yaml (Node Decoding Document)
open Yaml.Decoding

/-- What a document says, if it is of the form that is asked for. -/
def readDocument {α : Type} (f : Node → Decoding α) (text : String) : Except ConfigError α :=
  match (Document.ofText? text).bind (Document.decode? f) with
  | some a => .ok a
  | none => .error .malformed

/-! ## 1. Settings -/

/-- The choice that stands inside `level` collections. -/
def StoreChoice.ofNode (level : Nat) (n : Node) : Decoding StoreChoice := do
  let (kind, fields) ← variant level n
  need (StoreChoice.ofFields? kind fields)

/-- The policy that stands inside `level` collections. -/
def Backoff.ofNode (level : Nat) (n : Node) : Decoding Backoff := do
  let (kind, fields) ← variant level n
  need (Backoff.ofFields? kind fields)

namespace Settings

def ofNode (n : Node) : Decoding Settings := do
  let entries ← record fieldNames n
  pure
    { store? := ← optionalField entries "storage" (StoreChoice.ofNode 1)
      workers? := ← optionalField entries "max_workers" word64
      pollMillis? := ← optionalField entries "poll_interval_ms" word64
      shutdownMillis? := ← optionalField entries "shutdown_timeout_ms" word64
      discipline? := ← optionalField entries "queue_ordering" (choice Discipline.ofName?)
      backoff? := ← optionalField entries "default_backoff" (Backoff.ofNode 1)
      cascade? := ← optionalField entries "cascade_failures" bool }

/-- The settings in a text, if they make sense. -/
def ofText (text : String) : Except ConfigError Settings := do
  let s ← readDocument ofNode text
  s.check
  pure s

end Settings

/-! ## 2. Batches -/

def BatchEntry.ofNode (n : Node) : Decoding BatchEntry := do
  let entries ← record fieldNames n
  pure
    { id? := ← optionalField entries "id" text
      factory := ← required entries "factory" text
      queue? := ← optionalField entries "queue" text
      maxAttempts? := ← optionalField entries "max_attempts" int32
      maxBackoff? := ← optionalField entries "max_backoff_ms" int64
      maxInstances? := ← optionalField entries "max_instances" int32
      lifespan? := ← optionalField entries "lifespan_ms" int64
      delay? := ← optionalField entries "delay_ms" int64
      constraints := ← defaulted entries "constraints" [] (list text)
      dependsOn := ← defaulted entries "depends_on" [] (list text)
      payload? := ← optionalField entries "data" (value 3) }

namespace Batch

def ofNode (n : Node) : Decoding Batch := do
  let entries ← record ["jobs"] n
  pure { entries := ← required entries "jobs" (list BatchEntry.ofNode) }

/-- The batch in a text, if it makes sense. -/
def ofText (text : String) : Except ConfigError Batch := do
  let b ← readDocument ofNode text
  b.check
  pure b

end Batch

end Backlog
