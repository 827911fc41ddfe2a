/-
# Rehearsing a dispatcher

A rehearsal lets a dispatcher run against a clock of its own, which stands still while anything
is left to do and then jumps to the next alarm.  Whatever can go on waits for its turn in a
line; nothing happens between two turns.

The dispatcher takes a turn when its poll interval is over, when a command arrives, and when an
attempt has ended.  An attempt takes one turn to start, one to do its work up to its pause, one
to do the rest, and one to end.  Attempts that are cut off by a shutdown leave their jobs as
they are.

Turns are taken in rounds, which end when the line is empty or has become too long.  Only
between two rounds the onlooker notices that an answer has come or that there is room for a
command, and a dispatcher that tired in its turn gets in line again.

* `Rehearsal`: everything that goes on;
* `Rehearsal.takeTurn`, `Rehearsal.takeRound`, `Rehearsal.settle`: one turn, one round, and all
  rounds that can be taken now;
* `Rehearsal.sleep`, `Rehearsal.enqueue`, `Rehearsal.wake`, `Rehearsal.shutdown`,
  `Rehearsal.drain`: what an onlooker can do.
-/
import Backlog.Dispatch

namespace Backlog

/-! ## 1. The scene -/

/-- How a dispatcher is set up. -/
structure Setup where
  runner : Runner
  /-- None counts as one. -/
  workers : Nat := 4
  pollMillis : Nat := 1000
  shutdownMillis : Nat := 30000
  /-- The time of day, which stands still. -/
  moment : Moment

/-- What an onlooker tells a dispatcher. -/
inductive Command
  | enqueue (batch : List Submission)
  | wake
  | shutdown

def Command.name : Command → String
  | enqueue _ => "enqueue"
  | wake => "wake"
  | shutdown => "shutdown"

/-- How much a command takes.  A batch has to be taken on, the jobs that have a limit are counted,
it is inserted, and each of its jobs is announced. -/
def Command.effort : Command → Nat
  | enqueue batch => batch.countP (fun s => s.job.maxInstances != unlimited) + batch.length + 2
  | wake | shutdown => 1

/-- What waits for its turn. -/
inductive Turn
  /-- The dispatcher looks at its alarms and commands. -/
  | dispatcher
  /-- An attempt starts. -/
  | launch (t : Ticket)
  /-- The job runs up to its pause. -/
  | work (t : Ticket) (b : Behaviour)
  /-- The job runs on behind its pause. -/
  | resume (t : Ticket) (b : Behaviour)
  /-- An attempt ends. -/
  | finish (t : Ticket) (b : Behaviour)

def Turn.isDispatcher : Turn → Bool
  | dispatcher => true
  | _ => false

/-- How far a dispatcher has come. -/
inductive Phase
  | running
  /-- Waiting for the attempts in flight, until a time. -/
  | draining (deadline : Nat)
  | stopped
deriving DecidableEq

def Phase.isStopped (p : Phase) : Bool := p == .stopped

/-- Everything that goes on. -/
structure Rehearsal (σ : Type) where
  floor : Dispatch σ
  conditions : Conditions := {}
  clock : Nat := 0
  phase : Phase := .running
  /-- When the poll interval is over. -/
  nextPoll : Nat := 0
  /-- Whether an attempt has ended since the dispatcher looked. -/
  nudged : Bool := false
  /-- Whether the dispatcher tired before it was done. -/
  resting : Bool := false
  inbox : List Command := []
  /-- The answer to the last command that gets one. -/
  reply : Option (Except DispatchError Unit) := none
  turns : List Turn := [.dispatcher]
  alarms : List (Nat × Turn) := []

namespace Rehearsal

variable {σ : Type}

/-- Puts something at the end of the line.  The dispatcher stands in it once, and not while it
rests. -/
def queueUp (r : Rehearsal σ) (t : Turn) : Rehearsal σ :=
  if t.isDispatcher && (r.resting || r.turns.any Turn.isDispatcher) then r
  else { r with turns := r.turns ++ [t] }

/-- Sets an alarm for something. -/
def setAlarm (r : Rehearsal σ) (time : Nat) (t : Turn) : Rehearsal σ :=
  { r with alarms := r.alarms ++ [(time, t)] }

/-- Keeps what a job noted. -/
def jot (r : Rehearsal σ) (notes : List Note) : Rehearsal σ :=
  { r with floor := { r.floor with desk := r.floor.desk.jot notes } }

/-- Stops the dispatcher.  Whatever was still going on is cut off. -/
def stop (r : Rehearsal σ) : Rehearsal σ :=
  { r with
    phase := .stopped
    reply := some (.ok ())
    floor := { r.floor with inFlight := [] }
    turns := []
    alarms := [] }

/-! ## 2. Turns -/

variable [Storage σ]

/-- Hands out what can be handed out; the new attempts queue up. -/
def look (s : Setup) (r : Rehearsal σ) : Rehearsal σ :=
  let before := r.floor.issued
  let floor := r.floor.pass (max 1 s.workers) s.moment.now r.conditions
  let launched := floor.inFlight.filter fun t => before ≤ t.number
  { r with floor, turns := r.turns ++ launched.map Turn.launch }

/-- How many times the index is consulted to hand jobs out: once for the guards of each job that
is considered, and once more for one that is to run. -/
def handOutEffort (workers : Nat) (c : Conditions) : List Job → Dispatch σ → Nat
  | [], _ => 0
  | j :: rest, d =>
    if !(c.unmet (d.desk.index.roster.guards.rowsOf j.id)).isEmpty then
      handOutEffort workers c rest d + 1
    else if workers ≤ d.inFlight.length then 1
    else
      match d.desk.index.setRunning j.id true with
      | .error _ => handOutEffort workers c rest d + 2
      | .ok index => handOutEffort workers c rest (d.issue index j) + 2

/-- How many times the index is consulted to look for work. -/
def lookEffort (s : Setup) (r : Rehearsal σ) : Nat :=
  handOutEffort (max 1 s.workers) r.conditions (r.floor.desk.index.eligible s.moment.now)
    r.floor + 1

/-- Carries out a command. -/
def obey (s : Setup) (r : Rehearsal σ) : Command → Rehearsal σ
  | .enqueue batch =>
    match r.floor.enqueue batch with
    | .ok floor => { r with floor, reply := some (.ok ()) }.look s
    | .error e => { r with reply := some (.error e) }.look s
  | .wake => r.look s
  | .shutdown =>
    let deadline := r.clock + s.shutdownMillis
    { r with phase := .draining deadline }.setAlarm deadline .dispatcher

/-- How much a dispatcher does in one turn before it tires. -/
def stamina : Nat := 128

/-- The turn of the dispatcher: it attends to whatever is there to be attended to, and looks for
work each time, until it tires. -/
def serve (s : Setup) : Nat → Nat → Rehearsal σ → Rehearsal σ
  | 0, _, r => r
  | fuel + 1, done, r =>
    match r.phase with
    | .stopped => r
    | .draining deadline =>
      if r.floor.inFlight.isEmpty || deadline ≤ r.clock then r.stop else r
    | .running =>
      if stamina ≤ done then { r with resting := true }
      else if r.nextPoll ≤ r.clock then
        let next := r.nextPoll + s.pollMillis
        serve s fuel (done + 1 + r.lookEffort s)
          (({ r with nextPoll := next }.look s).setAlarm next .dispatcher)
      else if r.nudged then
        serve s fuel (done + r.lookEffort s) ({ r with nudged := false }.look s)
      else
        match r.inbox with
        | [] => r
        | c :: rest =>
          serve s fuel (done + c.effort + r.lookEffort s) (obey s { r with inbox := rest } c)

/-- An attempt has ended: the dispatcher is told, unless the attempt broke off.  While it waits
for the last attempts, it notices all of them. -/
def ended (r : Rehearsal σ) (verdict : Verdict) : Rehearsal σ :=
  if r.phase = .running then
    if verdict = .panicked then r else { r with nudged := true }.queueUp .dispatcher
  else r.queueUp .dispatcher

/-- Takes a turn. -/
def takeTurn (s : Setup) (r : Rehearsal σ) : Turn → Rehearsal σ
  | .dispatcher => r.serve s (r.inbox.length + 4) 0
  | .launch t =>
    match r.floor.launch s.runner s.moment t with
    | (.inl verdict, floor) => { r with floor }.ended verdict
    | (.inr b, floor) => { r with floor }.queueUp (.work t b)
  | .work t b =>
    let r := r.jot b.attempt.opening
    if b.attempt.pause = 0 then (r.jot b.attempt.closing).queueUp (.finish t b)
    else r.setAlarm (r.clock + b.attempt.pause.toNat) (.resume t b)
  | .resume t b => (r.jot b.attempt.closing).queueUp (.finish t b)
  | .finish t b =>
    let (verdict, floor) := r.floor.finish s.runner s.moment t b
    { r with floor }.ended verdict

/-- Takes at most so many turns. -/
def takeTurns (s : Setup) : Nat → Rehearsal σ → Rehearsal σ
  | 0, r => r
  | n + 1, r =>
    match r.turns with
    | [] => r
    | t :: rest => takeTurns s n (takeTurn s { r with turns := rest } t)

/-- How many turns make up a round, if there are so many. -/
def roundLength : Nat := 61

/-- Takes a round.  A dispatcher that has tired gets in line behind it. -/
def takeRound (s : Setup) (r : Rehearsal σ) : Rehearsal σ :=
  let r := takeTurns s roundLength r
  if r.resting then { r with resting := false }.queueUp .dispatcher else r

/-- How many rounds are taken at most before the clock moves on, and how many times it moves. -/
def patience : Nat := 1000000

/-- Takes rounds as long as anything waits for its turn. -/
def settleWithin (s : Setup) : Nat → Rehearsal σ → Rehearsal σ
  | 0, r => r
  | fuel + 1, r => if r.turns.isEmpty then r else settleWithin s fuel (r.takeRound s)

def settle (s : Setup) (r : Rehearsal σ) : Rehearsal σ := settleWithin s patience r

/-! ## 3. The clock -/

/-- The time of the next alarm. -/
def nextAlarm? (r : Rehearsal σ) : Option Nat := (r.alarms.map Prod.fst).min?

/-- Moves the clock.  The alarms of that time go off, in the order in which they were set. -/
def moveTo (r : Rehearsal σ) (time : Nat) : Rehearsal σ :=
  let due := r.alarms.filter fun a => a.1 ≤ time
  let r := { r with clock := time, alarms := r.alarms.filter fun a => time < a.1 }
  due.foldl (fun r a => r.queueUp a.2) r

/-- Lets everything go on until a time.  What that time brings about is left waiting. -/
def runUntil (s : Setup) (time : Nat) : Nat → Rehearsal σ → Rehearsal σ
  | 0, r => r
  | fuel + 1, r =>
    let r := r.settle s
    match r.nextAlarm? with
    | some next => if next < time then runUntil s time fuel (r.moveTo next) else r.moveTo time
    | none => r.moveTo time

/-- Lets everything go on until `done` holds between two rounds. -/
def runUntilSeen (s : Setup) (done : Rehearsal σ → Bool) : Nat → Rehearsal σ → Rehearsal σ
  | 0, r => r
  | fuel + 1, r =>
    let r := r.takeRound s
    if done r then r
    else if !r.turns.isEmpty then runUntilSeen s done fuel r
    else
      match r.nextAlarm? with
      | some next => runUntilSeen s done fuel (r.moveTo next)
      | none => r

/-! ## 4. What an onlooker can do -/

/-- The largest crew that can be told apart. -/
def largestCrew : Nat := Nat.pow 2 61 - 1

/-- Opens a rehearsal: jobs that were left running are to be run again.  Without a poll interval,
or with too large a crew, the dispatcher does not come to life. -/
def start (s : Setup) (conditions : Conditions) (index : Index σ) :
    Except IndexError (Rehearsal σ) :=
  index.clearRunning.map fun index =>
    { floor := { desk := { index } }
      conditions
      phase := if s.pollMillis = 0 || largestCrew < s.workers then .stopped else .running }

/-- Lets time go by. -/
def sleep (s : Setup) (millis : Nat) (r : Rehearsal σ) : Rehearsal σ :=
  if millis = 0 then r else r.runUntil s (r.clock + millis) patience

/-- How many commands may wait for the dispatcher. -/
def inboxSize : Nat := 32

/-- Whether a command need not wait before it is sent: there is room for it, or nobody who would
ever make room. -/
def mayAct (r : Rehearsal σ) : Bool := r.phase.isStopped || r.inbox.length < inboxSize

/-- Sends a command, as soon as there is room for it. -/
def send (s : Setup) (c : Command) (r : Rehearsal σ) : Except DispatchError Unit × Rehearsal σ :=
  let r := if r.mayAct then r else r.runUntilSeen s mayAct patience
  if r.phase.isStopped then (.error (.closed c.name), r)
  else (.ok (), { r with inbox := r.inbox ++ [c], reply := none }.queueUp .dispatcher)

/-- Sends a command and waits for the answer. -/
def call (s : Setup) (c : Command) (r : Rehearsal σ) : Except DispatchError Unit × Rehearsal σ :=
  match r.send s c with
  | (.error e, r) => (.error e, r)
  | (.ok (), r) =>
    let r := r.runUntilSeen s (fun r => r.reply.isSome) patience
    (r.reply.getD (.error (.closed c.name)), r)

def enqueue (s : Setup) (batch : List Submission) (r : Rehearsal σ) :
    Except DispatchError Unit × Rehearsal σ :=
  r.call s (.enqueue batch)

def shutdown (s : Setup) (r : Rehearsal σ) : Except DispatchError Unit × Rehearsal σ :=
  r.call s .shutdown

/-- Makes the dispatcher look for work; there is no answer to wait for. -/
def wake (s : Setup) (r : Rehearsal σ) : Except DispatchError Unit × Rehearsal σ := r.send s .wake

/-- Whether no job is stored. -/
def isIdle (r : Rehearsal σ) : Bool := r.floor.desk.index.roster.jobs.isEmpty

/-- Sleeps in steps of five milliseconds until no job is stored, at most `steps` times. -/
def drain (s : Setup) : Nat → Rehearsal σ → Rehearsal σ
  | 0, r => r
  | steps + 1, r => if r.isIdle then r else drain s steps (r.sleep s 5)

end Rehearsal

end Backlog
