/-
# Backoff policies as JSON

A policy is an object whose member `type` says which kind it is.  Delays are whole
milliseconds.
-/
import Backlog.Backoff
import Backlog.Json.Decode

namespace Backlog.Backoff

def toJson : Backoff → Json
  | fixed delay => .object [("type", .string "fixed"), ("delay", .int delay.toNat)]
  | exponential initial multiplier max jitter =>
    .object
      [("type", .string "exponential"), ("initial", .int initial.toNat),
        ("multiplier", .ofFloat multiplier), ("max", .int max.toNat), ("jitter", .ofFloat jitter)]

/-- The policy of a kind, with its fields. -/
def ofFields? (kind : String) (fields : Fields) : Option Backoff := do
  if kind == "fixed" then
    let m ← fields.members? ["delay"]
    let delay ← m.required "delay" Json.word64?
    pure (fixed delay)
  else if kind == "exponential" then
    let m ← fields.members? ["initial", "multiplier", "max", "jitter"]
    let initial ← m.required "initial" Json.word64?
    let multiplier ← m.required "multiplier" Json.float?
    let max ← m.required "max" Json.word64?
    let jitter ← m.required "jitter" Json.float?
    pure (exponential initial multiplier max jitter)
  else none

/-- The policy that stands inside `level` arrays and objects. -/
def ofJson? (level : Nat) (j : Json) : Option Backoff := do
  let (kind, fields) ← j.tagged? level
  ofFields? kind fields

end Backlog.Backoff
