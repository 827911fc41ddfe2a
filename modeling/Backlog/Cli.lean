/-
# Runs of the command line

A run reads its settings, opens the store that they name, and then does what it was asked to
do.  What it prints, what it leaves in its directory and why it fails are one value.

* `Invocation.settings`: the settings of a run;
* `Command.perform`: a command on an index that is open;
* `Invocation.run`: the whole run.
-/
import Backlog.Cli.Arguments
import Backlog.Cli.Directory
import Backlog.Cli.Line
import Backlog.Config.Document
import Backlog.Store.Backend
import Backlog.Text.Quoted

namespace Backlog.Cli

/-! ## 1. Settings and batches -/

/-- Why a run fails. -/
inductive Failure
  | config (cause : ConfigError)
  | store (cause : StoreError)
  | index (cause : IndexError)
deriving DecidableEq, Repr

def Failure.message : Failure → String
  | config cause => cause.message
  | store cause => cause.message
  | index cause => cause.message

/-- The text of a file that is part of the configuration. -/
def Directory.configText (d : Directory) (path : String) : Except ConfigError String :=
  match d.readText path with
  | .ok text => .ok text
  | .error reason => .error (.unreadable reason.message)

def Directory.batch (d : Directory) (path : String) : Except ConfigError Batch :=
  d.configText path >>= Batch.ofText

/-- The file of settings of a run that names none. -/
def defaultConfig : String := "jobline.yaml"

namespace Invocation

/-- The file of settings of a run, if there is one. -/
def configPath? (i : Invocation) (d : Directory) : Option String :=
  match i.config? with
  | some path => some path
  | none => if d.contains defaultConfig then some defaultConfig else none

/-- The settings of a run. -/
def settings (i : Invocation) (d : Directory) : Except ConfigError Settings :=
  match i.configPath? d with
  | some path => d.configText path >>= Settings.ofText
  | none => .ok {}

end Invocation

/-! ## 2. Checking the configuration -/

def storeText : StoreChoice → String
  | .memory => "Memory"
  | .file path => "Sqlite \x7b path: " ++ Text.quoted path ++ " \x7d"

def disciplineText : Discipline → String
  | .runToCompletion => "RunToCompletion"
  | .pipelined => "Pipelined"

/-- What is said of settings that make sense. -/
def settingsLine (s : Settings) : Line :=
  .info (s!"Configuration OK: {storeText s.store} storage, {s.workers} worker(s), "
    ++ s!"{disciplineText s.discipline} queues")

/-- Checks a batch file. -/
def checkBatch (d : Directory) (path : String) : List Line × Option Failure :=
  match d.batch path with
  | .ok b => ([.info s!"All {b.entries.length} job(s) in {path} are valid"], none)
  | .error e => ([.error s!"Validation failed: {e.message}"], some (.config e))

/-! ## 3. Commands on an open index -/

/-- Time, and the id of a job that has none by its place in its batch. -/
structure Chance where
  now : Int64
  fresh : Nat → JobId

section

variable {σ : Type} [Storage σ]

/-- Stores the jobs of a batch file. -/
def enqueue (d : Directory) (c : Chance) (path : String) (x : Index σ) :
    List Line × Except Failure (Index σ) :=
  match d.batch path >>= fun b => b.submissions c.fresh c.now with
  | .error e => ([], .error (.config e))
  | .ok batch =>
    match x.insert batch with
    | .ok x => ([.info s!"Enqueued {batch.length} job(s) from {path}"], .ok x)
    | .error (.cycle id) =>
      ([.log .warn "jobline::index" "Rejecting jobs that would form a dependency cycle"
          [("job_id", id.text)]],
        .error (.index (.cycle id)))
    | .error e => ([], .error (.index e))

/-- Clears every running flag. -/
def reset (x : Index σ) : List Line × Except Failure (Index σ) :=
  match x.clearRunning with
  | .ok y =>
    ([.info s!"Reset {x.jobs.countP Job.running} running job(s) to pending"], .ok y)
  | .error e => ([], .error (.index e))

/-- The jobs that a deletion is about, whether they are stored or not. -/
def targets (x : Index σ) (ids : List JobId) (cascade : Bool) : List JobId :=
  if cascade then x.roster.withDependents ids else ids

/-- Deletes jobs, and with `cascade` also the jobs that wait on them. -/
def delete (ids : List JobId) (cascade : Bool) (x : Index σ) :
    List Line × Except Failure (Index σ) :=
  let all := targets x ids cascade
  let unknown := all.filter fun id => !x.roster.contains id
  let warnings := unknown.map fun id => Line.warn s!"Job '{id.text}' is not stored"
  match x.delete all with
  | .ok x => (warnings ++ [.info s!"Deleted {all.length} job(s)"], .ok x)
  | .error e => (warnings, .error (.index e))

/-- What a command prints, and the index after it. -/
def Command.perform (d : Directory) (c : Chance) (x : Index σ) :
    Command → List Line × Except Failure (Index σ)
  | list => (listing x, .ok x)
  | pending => (pendingListing x c.now, .ok x)
  | enqueue batch => Cli.enqueue d c batch x
  | reset => Cli.reset x
  | delete ids cascade => Cli.delete ids cascade x
  | validate _ => ([], .ok x)

end

/-! ## 4. Runs -/

/-- What a run prints, why it fails, and the directory after it. -/
structure Report where
  lines : List Line := []
  failure? : Option Failure := none
  directory : Directory

/-- What is said before a store is opened. -/
def openingLine : StoreChoice → Line
  | .memory => .warn "Using in-memory storage; changes are discarded on exit"
  | .file path => .info s!"Using SQLite storage at {path}"

namespace Directory

/-- The directory once a store is about to be opened. -/
def prepared (d : Directory) : StoreChoice → Directory
  | .memory => d
  | .file text => (Address.ofText? text).elim d d.touch

def openStore (d : Directory) : StoreChoice → Except StoreError Backend
  | .memory => .ok (.memory {})
  | .file text =>
    match Address.ofText? text with
    | some a => (d.openDatabase a).map .database
    | none => .error .unavailable

/-- Keeps the database of a store; a store in memory is dropped. -/
def keepStore (d : Directory) : StoreChoice → Backend → Directory
  | .file text, .database connection =>
    (Address.ofText? text).elim d fun a => d.keepDatabase a connection
  | _, _ => d

end Directory

/-- The index of the store that the settings name. -/
def openIndex (s : Settings) (d : Directory) : Except Failure (Index Backend) :=
  match d.openStore s.store with
  | .error e => .error (.store e)
  | .ok store =>
    match Index.open store s.discipline with
    | .error e => .error (.index e)
    | .ok x => .ok x

/-- Runs a command on the store that the settings name. -/
def Command.run (command : Command) (s : Settings) (d : Directory) (c : Chance) : Report :=
  let opening := openingLine s.store
  match openIndex s d with
  | .error e => { lines := [opening], failure? := some e, directory := d.prepared s.store }
  | .ok x =>
    let (lines, result) := command.perform d c x
    let opened := d.keepStore s.store x.store
    match result with
    | .ok y => { lines := opening :: lines, directory := opened.keepStore s.store y.store }
    | .error e => { lines := opening :: lines, failure? := some e, directory := opened }

/-- The whole run.  Checking the configuration opens no store. -/
def Invocation.run (i : Invocation) (d : Directory) (c : Chance) : Report :=
  match i.settings d with
  | .error e => { failure? := some (.config e), directory := d }
  | .ok s =>
    match i.command with
    | .validate none => { lines := [settingsLine s], directory := d }
    | .validate (some path) =>
      let (lines, failure?) := checkBatch d path
      { lines := settingsLine s :: lines, failure?, directory := d }
    | command => command.run s d c

/-- The files that a run may read besides its database. -/
def Invocation.files (i : Invocation) : List String :=
  i.config?.getD defaultConfig ::
    match i.command with
    | .enqueue batch => [batch]
    | .validate batch? => batch?.toList
    | _ => []

/-- The database file that a run opens, if it opens one. -/
def Invocation.databasePath? (i : Invocation) (d : Directory) : Option String :=
  match i.command, i.settings d with
  | .validate _, _ => none
  | _, .error _ => none
  | _, .ok s =>
    match s.store with
    | .memory => none
    | .file text =>
      match Address.ofText? text with
      | some { place := .file path, .. } => some path
      | _ => none

/-- The exit status of a run. -/
def Report.status (r : Report) : UInt32 := if r.failure?.isSome then 1 else 0

/-- The exit status when there is no run. -/
def Halt.status : Halt → UInt32
  | refused => 2
  | usage | version => 0

/-- What is printed when there is no run. -/
def Halt.lines : Halt → List String
  | refused => []
  | usage => Cli.usage
  | version => Cli.version

end Backlog.Cli
