/-
# The arguments of a run

The first word names the command, and the words after it are what the command works on.  Flags
and options stand anywhere, also before the command, until a double dash ends them.  No option
and no flag may be given twice, but the file of settings may be named both before and after the
command, and then the later one counts.

* `Command`, `Invocation`: what a run is asked to do;
* `Form`: what a command takes, and `Form.read`, which sorts arguments by it;
* `Invocation.ofArguments`: what the arguments ask for, or why they come to no command.
-/
import Backlog.Job

namespace Backlog.Cli

/-! ## 1. What a run is asked to do -/

inductive Command
  /-- Shows every stored job. -/
  | list
  /-- Shows the jobs that may be handed out now. -/
  | pending
  /-- Stores the jobs of a batch file. -/
  | enqueue (batch : String)
  /-- Clears every running flag. -/
  | reset
  /-- Deletes jobs, and with `cascade` also the jobs that wait on them. -/
  | delete (ids : List JobId) (cascade : Bool)
  /-- Checks the settings, and a batch file if one is named. -/
  | validate (batch? : Option String)
deriving DecidableEq, Repr

structure Invocation where
  /-- The file of settings, if one is named. -/
  config? : Option String := none
  command : Command
deriving DecidableEq, Repr

/-- Why arguments come to no command. -/
inductive Halt
  /-- They ask how the program is used. -/
  | usage
  /-- They ask for the version of the program. -/
  | version
  /-- They make no sense. -/
  | refused
deriving DecidableEq, Repr

/-! ## 2. One argument -/

/-- What a command takes, besides a file of settings and the question how it is used. -/
structure Form where
  /-- Whether the version may be asked for. -/
  version : Bool := false
  cascade : Bool := false
  batch : Bool := false
  /-- The most words it takes, if there is a limit. -/
  mostWords? : Option Nat := some 0
  /-- Whether its words are names of files, which are not empty. -/
  namesFiles : Bool := false

/-- An option that has a value. -/
inductive Valued
  | config
  | batch
deriving DecidableEq, Repr

/-- One argument, as far as it can be told from itself. -/
inductive Argument
  | word (text : String)
  | endOfOptions
  | usage
  | version
  | cascade
  /-- The value is in the same argument, or else is the next one. -/
  | valued (option : Valued) (value? : Option String)
  | unknown
deriving DecidableEq, Repr

namespace Argument

/-- An option or a flag by its name. -/
def long (form : Form) (name : String) (value? : Option String) : Argument :=
  if name == "config" then valued .config value?
  else if name == "batch" && form.batch then valued .batch value?
  else if value?.isSome then unknown
  else if name == "help" then usage
  else if name == "version" && form.version then version
  else if name == "cascade" && form.cascade then cascade
  else unknown

/-- An option or a flag by its letter, with what follows the letter. -/
def short (form : Form) (letter : Char) (rest : List Char) : Argument :=
  if letter = 'c' then
    match rest with
    | [] => valued .config none
    | '=' :: value => valued .config (some (String.ofList value))
    | value => valued .config (some (String.ofList value))
  else if letter = 'h' then usage
  else if letter = 'V' && form.version then version
  else unknown

/-- A single dash is a word. -/
def ofChars (form : Form) : List Char → Argument
  | ['-', '-'] => endOfOptions
  | '-' :: '-' :: text =>
    let value? := match text.dropWhile (· != '=') with
      | [] => none
      | _ :: value => some (String.ofList value)
    long form (String.ofList (text.takeWhile (· != '='))) value?
  | '-' :: letter :: rest => short form letter rest
  | text => word (String.ofList text)

def ofText (form : Form) (s : String) : Argument := ofChars form s.toList

end Argument

/-! ## 3. All arguments -/

/-- What has been read so far. -/
structure Reading where
  config? : Option String := none
  batch? : Option String := none
  cascade : Bool := false
  words : List String := []
  /-- Whether a double dash ended the options. -/
  ended : Bool := false

namespace Reading

/-- Takes an option, unless it was given before or its value is empty. -/
def take? (r : Reading) (option : Valued) (value : String) : Option Reading :=
  if value.isEmpty then none
  else
    match option with
    | .config => if r.config?.isSome then none else some { r with config? := some value }
    | .batch => if r.batch?.isSome then none else some { r with batch? := some value }

end Reading

namespace Form

/-- Reads arguments up to the first word that is one too many, and returns what is left. -/
def read (form : Form) : Reading → List String → Except Halt (Reading × List String)
  | r, [] => .ok (r, [])
  | r, arg :: rest =>
    match if r.ended then .word arg else Argument.ofText form arg with
    | .word text =>
      if form.mostWords?.any (· ≤ r.words.length) then .ok (r, arg :: rest)
      else if form.namesFiles && text.isEmpty then .error .refused
      else form.read { r with words := r.words ++ [text] } rest
    | .endOfOptions => form.read { r with ended := true } rest
    | .usage => .error .usage
    | .version => .error .version
    | .cascade => if r.cascade then .error .refused else form.read { r with cascade := true } rest
    | .valued option (some value) =>
      match r.take? option value with
      | some r => form.read r rest
      | none => .error .refused
    | .valued option none =>
      match rest with
      | [] => .error .refused
      | next :: rest =>
        match Argument.ofText form next with
        | .word value =>
          match r.take? option value with
          | some r => form.read r rest
          | none => .error .refused
        | _ => .error .refused
    | .unknown => .error .refused

/-- What may stand before the command. -/
def leading : Form := { version := true }

/-- The commands by name, with what each takes. -/
def commands : List (String × Form) :=
  [("list", {}),
    ("pending", {}),
    ("enqueue", { mostWords? := some 1, namesFiles := true }),
    ("reset", {}),
    ("delete", { cascade := true, mostWords? := none }),
    ("validate", { batch := true })]

end Form

/-- The command of this name, if it has the words that it needs. -/
def Command.ofReading? (name : String) (r : Reading) : Option Command :=
  match name, r.words with
  | "list", [] => some .list
  | "pending", [] => some .pending
  | "enqueue", [batch] => some (.enqueue batch)
  | "reset", [] => some .reset
  | "delete", id :: ids => some (.delete ((id :: ids).map JobId.mk) r.cascade)
  | "validate", [] => some (.validate r.batch?)
  | _, _ => none

/-- The word `help` asks how the program or one command is used. -/
def helpOn : List String → Halt
  | [] => .usage
  | [name] => if name == "help" || (Form.commands.lookup name).isSome then .usage else .refused
  | _ => .refused

/-- What the arguments ask for, or why they come to no command. -/
def Invocation.ofArguments (args : List String) : Except Halt Invocation := do
  let (top, rest) ← Form.leading.read {} args
  match rest with
  | [] => .error .refused
  | name :: rest =>
    if top.ended then .error .refused
    else if name == "help" then .error (helpOn rest)
    else
      match Form.commands.lookup name with
      | none => .error .refused
      | some form =>
        let (r, extra) ← form.read {} rest
        match extra, Command.ofReading? name r with
        | [], some command => .ok { config? := r.config? <|> top.config?, command }
        | _, _ => .error .refused

/-! ## 4. Answers to questions -/

/-- How the program is used. -/
def usage : List String :=
  ["jobline - durable background-job store maintenance",
    "",
    "Usage: jobline [OPTIONS] <COMMAND>",
    "",
    "Commands:",
    "  list      List every stored job",
    "  pending   Show jobs that would be dispatched now",
    "  enqueue   Insert a batch of jobs from a YAML file",
    "  reset     Mark every job as not running",
    "  delete    Delete jobs by id",
    "  validate  Validate the configuration, and a batch file if given",
    "  help      Print this message",
    "",
    "Options:",
    "  -c, --config <FILE>  Path to the global configuration file",
    "  -h, --help           Print help",
    "  -V, --version        Print version"]

/-- The version of the program. -/
def version : List String := ["jobline 0.1.0"]

end Backlog.Cli
