/-
# How long to wait before the next attempt

A `Backoff` policy turns the number of an attempt into a delay in whole milliseconds.  A fixed
policy always gives the same delay; an exponential one multiplies it from attempt to attempt up
to a bound, and may shave off a random part.

* `Backoff.baseDelay`: the delay without the random part;
* `Backoff.delayNanos`, `Backoff.delay`: the delay for a given draw between 0 and 1, in nanoseconds
  and in milliseconds;
* `Backoff.nextDue`: when the next attempt is due, given the delay.  The delay is read as a
  signed word, so one of more than `2 ^ 63` milliseconds counts as negative (`asSigned`).
-/
import Backlog.Clamped
import Backlog.Decimal.Shortest

namespace Backlog

/-- How long to wait before the next attempt of a job. -/
inductive Backoff
  /-- The same delay before every retry. -/
  | fixed (delay : UInt64)
  /-- `initial * multiplier ^ (attempt - 1)`, at most `max`; `jitter` is the fraction that may
  be shaved off at random. -/
  | exponential (initial : UInt64) (multiplier : Float) (max : UInt64) (jitter : Float)

/-! ## 1. Powers and bounds of floats -/

/-- The smaller of two floats; if one of them is not a number, the other. -/
def Float.least (a b : Float) : Float :=
  if a.isNaN then b else if b.isNaN then a else if a < b then a else b

/-- `a` within `lo` and `hi`; not a number stays so. -/
def Float.within (lo hi a : Float) : Float := if a < lo then lo else if hi < a then hi else a

/-- The rest of a power by repeated squaring: `r * a ^ n`, lowest bit of `n` first. -/
def powerLoop : Nat → Nat → Float → Float → Float
  | 0, _, _, r => r
  | fuel + 1, n, a, r =>
    let r := if n % 2 = 1 then r * a else r
    if n / 2 = 0 then r else powerLoop fuel (n / 2) (a * a) r

/-- `a ^ n` by repeated squaring, lowest bit of `n` first. -/
def power (a : Float) (n : Nat) : Float := powerLoop (n.log2 + 1) n a 1.0

/-- A float as an unsigned word: truncated, and held within the range. -/
def wordOfFloat (a : Float) : UInt64 := a.toUInt64

namespace Backoff

/-! ## 2. Policies -/

/-- An exponential policy without jitter. -/
def growing (initial : UInt64) (multiplier : Float) (max : UInt64) : Backoff :=
  exponential initial multiplier max 0.0

/-- Sets the jitter of an exponential policy, held between 0 and 1. -/
def withJitter (fraction : Float) : Backoff → Backoff
  | exponential initial multiplier max _ =>
    exponential initial multiplier max (Float.within 0.0 1.0 fraction)
  | fixed delay => fixed delay

/-- One second, doubling, at most one minute. -/
def standard : Backoff := growing 1000 2.0 60000

/-- A quarter of a second, doubling, at most eight seconds, with half of it up to chance: for
requests to another machine. -/
def remote : Backoff := (growing 250 2.0 8000).withJitter 0.5

instance : Inhabited Backoff := ⟨standard⟩

/-- How much of the delay is up to chance. -/
def jitter : Backoff → Float
  | fixed _ => 0.0
  | exponential _ _ _ j => j

/-! ## 3. Delays -/

/-- The delay before retry number `attempt`, counted from 1, without the random part. -/
def baseDelay : Backoff → Int32 → UInt64
  | fixed delay, _ => delay
  | exponential initial multiplier max _, attempt =>
    let exponent := (predClamped attempt).toInt.toNat
    let millis := initial.toFloat * power multiplier exponent
    wordOfFloat (Float.least millis max.toFloat)

/-- The nanoseconds of a millisecond. -/
def nanosPerMilli : Nat := 1000000

/-- The nanoseconds of a second. -/
def nanosPerSecond : Nat := 1000000000

/-- Nanoseconds as seconds: the whole ones and the rest are rounded apart, and then their sum. -/
def secondsOfNanos (nanos : Nat) : Float :=
  Float.ofNat (nanos / nanosPerSecond) +
    Float.ofNat (nanos % nanosPerSecond) / Float.ofNat nanosPerSecond

/-- The nearest whole number of nanoseconds, the even one of two. -/
def nanosOfSeconds (seconds : Float) : Nat :=
  let v := Decimal.Dyadic.ofFloat seconds
  let (num, den) := Decimal.power 2 (v.mantissa * nanosPerSecond) v.exponent
  let quotient := num / den
  let rest := 2 * (num % den)
  if rest < den ∨ (rest = den ∧ quotient % 2 = 0) then quotient else quotient + 1

/-- A share of a time. -/
def share (nanos : Nat) (factor : Float) : Nat := nanosOfSeconds (factor * secondsOfNanos nanos)

/-- The delay before retry number `attempt` in nanoseconds, when chance draws `draw`, between 0
and 1.  A share of a long time may come out longer than the whole, by rounding. -/
def delayNanos (p : Backoff) (attempt : Int32) (draw : Float) : Nat :=
  let base := (p.baseDelay attempt).toNat * nanosPerMilli
  if p.jitter > 0.0 && base != 0 then share base (1.0 - draw * Float.least p.jitter 1.0) else base

/-- The whole milliseconds of the delay. -/
def delay (p : Backoff) (attempt : Int32) (draw : Float) : Nat :=
  p.delayNanos attempt draw / nanosPerMilli

end Backoff

/-! ## 4. Due times -/

/-- Milliseconds read as a signed word. -/
def asSigned (millis : Nat) : Int64 := .ofInt millis

/-- When an attempt is due that waits for `delay` from `now`, but no longer than `maxBackoff`
unless that is negative. -/
def dueAfter (now : Int64) (delay : Nat) (maxBackoff : Int64) : Int64 :=
  let signed := asSigned delay
  addClamped now (if 0 ≤ maxBackoff then min signed maxBackoff else signed)

/-- When the next attempt is due. -/
def Backoff.nextDue (p : Backoff) (now : Int64) (attempt : Int32) (maxBackoff : Int64)
    (draw : Float) : Int64 :=
  dueAfter now (p.delay attempt draw) maxBackoff

/-! ## 5. Checking the random part -/

/-- Eight draws spread evenly between 0 and 1, neither of which chance ever draws. -/
def sampleDraws : List Float := (List.range 8).map fun i => (Float.ofNat i + 0.5) / 8.0

/-- Whether sample delays stay at or below the base delay, and no more than the jitter (and a
millisecond) below it. -/
def Backoff.jitterInBounds (p : Backoff) (attempt : Int32) : Bool :=
  let base := (p.baseDelay attempt).toNat * nanosPerMilli
  let floor := share base (1.0 - Float.least p.jitter 1.0) - nanosPerMilli
  sampleDraws.all fun draw =>
    let nanos := p.delayNanos attempt draw
    decide (nanos ≤ base) && decide (floor ≤ nanos)

/-- Whether sample due times are no earlier than `now` and within the longest backoff. -/
def Backoff.dueInBounds (p : Backoff) (now : Int64) (attempt : Int32) (maxBackoff : Int64) :
    Bool :=
  sampleDraws.all fun draw =>
    let due := p.nextDue now attempt maxBackoff draw
    decide (now ≤ due) && (decide (maxBackoff < 0) || decide (due ≤ addClamped now maxBackoff))

end Backlog
