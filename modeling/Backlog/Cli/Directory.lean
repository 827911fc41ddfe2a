/-
# The directory in which a run takes place

A run reads files of settings and of jobs, and it reads and writes databases.  A `Directory`
holds what stands under each path.  A directory is there if something stands below it.

* `Path`: a path as the names of its steps.  To resolve one (`Path.resolved`), a step up undoes
  the step before it;
* `Directory.lookup`, `Directory.readText`: what stands under a path, and the text of a file.
  Each step of the path is taken in turn, so a step up has to leave a directory that is there;
* `Directory.openDatabase`, `Directory.keepDatabase`: databases.  Their paths are resolved before
  anything is looked up, and opening one that is not there makes an empty one, if its directory
  is there.
-/
import Backlog.Store.Address
import Backlog.Store.Saved

namespace Backlog.Cli

/-! ## 1. Paths -/

/-- A path: the names along it, from the root or from where the run takes place. -/
structure Path where
  rooted : Bool := false
  steps : List String
deriving DecidableEq

namespace Path

/-- The step to the directory around. -/
def up : String := ".."

/-- Cuts a text at its slashes; a step that stays in place is left out. -/
def ofText (s : String) : Path :=
  { rooted := s.startsWith "/"
    steps := (s.splitOn "/").filter fun step => step != "" && step != "." }

def toText (p : Path) : String :=
  (if p.rooted then "/" else "") ++ "/".intercalate p.steps

/-- A step further; a step up undoes the last one.  There is nothing around the root. -/
def step (p : Path) (name : String) : Path :=
  if name != up then { p with steps := p.steps ++ [name] }
  else if p.steps.isEmpty && p.rooted then p
  else if p.steps.all (· == up) then { p with steps := p.steps ++ [up] }
  else { p with steps := p.steps.dropLast }

/-- The path without detours.  Only at its start a path may still lead up. -/
def resolved (p : Path) : Path := p.steps.foldl step { p with steps := [] }

/-- The directory that holds what stands under a path. -/
def parent (p : Path) : Path := { p with steps := p.steps.dropLast }

/-- Whether `p` leads through `q`. -/
def isBelow (p q : Path) : Bool :=
  p.rooted == q.rooted && q.steps.isPrefixOf p.steps && q.steps.length < p.steps.length

/-- The path cut off behind each of its steps. -/
def stages (p : Path) : List Path :=
  (List.range p.steps.length).map fun n => { p with steps := p.steps.take (n + 1) }

end Path

/-- Whether a text can only be the path of a directory. -/
def endsInDirectory (s : String) : Bool :=
  match (s.splitOn "/").getLast? with
  | some step => step == "" || step == "."
  | none => true

/-! ## 2. Files -/

/-- Why a file cannot be read. -/
inductive ReadError
  | missing
  /-- A directory stands under the path. -/
  | directory
  /-- The path leads through a file. -/
  | throughFile
  /-- The path or one of its names is too long. -/
  | tooLong
  /-- The file holds no text. -/
  | notText
  | other (reason : String)
deriving DecidableEq, Repr

def ReadError.message : ReadError → String
  | missing => "No such file or directory (os error 2)"
  | directory => "Is a directory (os error 21)"
  | throughFile => "Not a directory (os error 20)"
  | tooLong => "File name too long (os error 36)"
  | notText => "stream did not contain valid UTF-8"
  | other reason => reason

/-- What stands under a path. -/
inductive Entry
  | text (content : String)
  | database (content : Database)
  | directory
  | unreadable (reason : ReadError)

/-- What a file with this content is. -/
def Entry.ofBytes (bytes : ByteArray) : Entry :=
  match Database.ofBytes? bytes, String.fromUTF8? bytes with
  | some content, _ => .database content
  | none, some content => .text content
  | none, none => .unreadable .notText

def Entry.isDirectory : Entry → Bool
  | directory => true
  | _ => false

/-- What stands under each path; the paths are resolved. -/
structure Directory where
  entries : List (Path × Entry) := []

/-- The most bytes that a name may take. -/
def longestName : Nat := 255

/-- The most bytes that a path may take. -/
def longestPath : Nat := 4095

namespace Directory

/-- Whether a directory stands under a resolved path.  The directories around the run are
there. -/
def hasDirectory (d : Directory) (p : Path) : Bool :=
  p.steps.all (· == Path.up) || d.entries.any fun (q, e) => q.isBelow p || (q == p && e.isDirectory)

/-- What stands under a resolved path. -/
def found? (d : Directory) (p : Path) : Option Entry :=
  if d.hasDirectory p then some .directory else d.entries.lookup p

/-- Takes steps, each out of a directory. -/
def walk (d : Directory) : List String → Path → Except ReadError Path
  | [], p => .ok p
  | name :: rest, p =>
    match d.found? p with
    | some .directory =>
      if longestName < name.utf8ByteSize then .error .tooLong else walk d rest (p.step name)
    | some _ => .error .throughFile
    | none => .error .missing

/-- What stands under a path, unless that is a directory. -/
def lookup (d : Directory) (s : String) : Except ReadError Entry :=
  if longestPath < s.utf8ByteSize then .error .tooLong
  else
    let p := Path.ofText s
    match d.walk p.steps { p with steps := [] } with
    | .error reason => .error reason
    | .ok p =>
      match d.found? p with
      | none => .error .missing
      | some .directory => .error .directory
      | some e => if endsInDirectory s then .error .throughFile else .ok e

/-- Whether anything stands under a path. -/
def contains (d : Directory) (s : String) : Bool :=
  match d.lookup s with
  | .ok _ => true
  | .error .directory => true
  | .error _ => false

/-- The text of a file. -/
def readText (d : Directory) (s : String) : Except ReadError String :=
  match d.lookup s with
  | .error reason => .error reason
  | .ok (.text content) => .ok content
  | .ok (.database _) => .error .notText
  | .ok .directory => .error .directory
  | .ok (.unreadable reason) => .error reason

/-- Puts something under a path. -/
def put (d : Directory) (s : String) (e : Entry) : Directory :=
  let p := (Path.ofText s).resolved
  ⟨(d.entries.filter fun (q, _) => q != p) ++ [(p, e)]⟩

/-! ## 3. Databases -/

/-- What is put behind the name of a database for the file of a transaction. -/
def transactionSuffix : String := "-journal"

/-- Whether a file can be made under a path. -/
def hasRoomFor (d : Directory) (path : String) : Bool :=
  let p := (Path.ofText path).resolved
  (d.found? p).isNone && d.hasDirectory p.parent &&
    p.steps.all fun name => name.utf8ByteSize ≤ longestName

/-- Makes an empty file for a database that may be created. -/
def touch (d : Directory) (a : Address) : Directory :=
  match a.place with
  | .volatile => d
  | .file path => if a.mayCreate && d.hasRoomFor path then d.put path (.text "") else d

/-- Whether the file of a transaction can be made beside a database. -/
def admitsTransactions (path : String) : Bool :=
  (Path.ofText path).resolved.steps.all fun name =>
    name.utf8ByteSize + transactionSuffix.utf8ByteSize ≤ longestName

/-- The database at an address.  A file without content becomes an empty database, if it may be
written. -/
def openDatabase (d : Directory) (a : Address) : Except StoreError Connection :=
  match a.place with
  | .volatile => if a.mayWrite then .ok {} else .error .unavailable
  | .file path =>
    match (d.touch a).found? (Path.ofText path).resolved with
    | some (.database content) => .ok { database := content, readOnly := !a.mayWrite }
    | some (.text content) =>
      if content.isEmpty && a.mayWrite && admitsTransactions path then .ok {}
      else .error .unavailable
    | _ => .error .unavailable

/-- Keeps the database of a connection at its address. -/
def keepDatabase (d : Directory) (a : Address) (c : Connection) : Directory :=
  match a.place with
  | .volatile => d
  | .file path => d.put path (.database c.database)

end Directory

end Backlog.Cli
