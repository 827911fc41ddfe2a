/-
# Lines of output

What a run prints: plain lines, and lines of its log, which name their severity and the part
of the program that they come from.

* `Line`, `Line.text`: the message of a log line holds nothing that a terminal would obey
  (`tamed`);
* `listing`, `pendingListing`: the jobs of an index, and those that may be handed out.
-/
import Backlog.Index
import Backlog.Text.Hex

namespace Backlog.Cli

/-! ## 1. Lines -/

inductive Severity
  | info
  | warn
  | error
deriving DecidableEq, Repr

def Severity.name : Severity → String
  | info => "INFO"
  | warn => "WARN"
  | error => "ERROR"

/-- A line of plain text, or one of a log, whose message may be followed by names with values. -/
inductive Line
  | plain (text : String)
  | log (severity : Severity) (source message : String) (fields : List (String × String))
deriving DecidableEq, Repr

/-- A character by its number, where a terminal would take it for a command. -/
def tamedChar (c : Char) : List Char :=
  let n := c.toNat
  if [0x07, 0x08, 0x0c, 0x1b, 0x7f].contains n then '\\' :: 'x' :: Text.hexDigits 2 n
  else if 0x80 ≤ n && n ≤ 0x9f then ['\\', 'u', '\x7b'] ++ Text.hexDigits 2 n ++ ['\x7d']
  else [c]

/-- A text that is safe to show on a terminal. -/
def tamed (s : String) : String := String.ofList (s.toList.flatMap tamedChar)

namespace Line

def text : Line → String
  | plain s => s
  | log severity source message fields =>
    fields.foldl (fun line (name, value) => s!"{line} {name}={value}")
      s!"{severity.name} {source}: {tamed message}"

/-- The log lines of the command line itself. -/
def info (message : String) : Line := log .info "jobline" message []

def warn (message : String) : Line := log .warn "jobline" message []

def error (message : String) : Line := log .error "jobline" message []

end Line

/-! ## 2. Jobs -/

/-- A limit on attempts. -/
def limitText (limit : Int32) : String :=
  if limit = unlimited then "unlimited" else toString limit.toInt

/-- A line of names, unless there are none. -/
def namesLine (label : String) (names : List String) : List String :=
  if names.isEmpty then [] else [s!"  {label}: " ++ ", ".intercalate names]

/-- What is shown of a job and of its rows. -/
def describe (s : Submission) : List String :=
  let j := s.job
  [s!"ID: {j.id.text}", s!"  Factory: {j.factory}"]
    ++ (j.queue.toList.map fun q => s!"  Queue: {q}")
    ++ [s!"  Attempts: {j.attempt.toInt} of {limitText j.maxAttempts}",
      s!"  Next run: {j.due.toInt}", s!"  Running: {j.running}"]
    ++ namesLine "Depends on" (s.edges.map fun e => e.waitsOn.text)
    ++ namesLine "Constraints" (s.guards.map Guard.name)
    ++ [""]

section

variable {σ : Type} [Storage σ]

/-- Every job of an index. -/
def listing (x : Index σ) : List Line :=
  match x.submissions with
  | [] => [.plain "No jobs stored"]
  | all => ([s!"{all.length} job(s):", ""] ++ all.flatMap describe).map Line.plain

/-- The jobs that may be handed out at `now`. -/
def pendingListing (x : Index σ) (now : Int64) : List Line :=
  match x.eligible now with
  | [] => [.plain "No jobs are eligible to run"]
  | all =>
    (s!"{all.length} job(s) eligible to run:" ::
      all.map fun j => s!"  - {j.id.text} ({j.factory})").map Line.plain

end

end Backlog.Cli
