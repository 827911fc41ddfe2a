/-
# Addresses of databases

The address of a database is the path of its file, perhaps with the scheme `sqlite:` in front
and parameters behind a question mark.  A path may itself be a locator: the scheme `file:`, and
parameters of its own.  Both say whether the database may be written or created, and whether it
is kept in a file at all.

* `Address`: what an address comes down to;
* `Request`: what the parameters ask for, first those of the address (`Request.with?`) and then
  those of a locator (`Request.withInner?`);
* `Address.ofText?`: reads an address.
-/
import Backlog.Text.Percent

namespace Backlog

/-! ## 1. What an address comes down to -/

/-- Where a database is kept. -/
inductive Place
  /-- In memory, or in a file that is gone afterwards. -/
  | volatile
  | file (path : String)
deriving DecidableEq, Repr

/-- What may be done with a database; whoever may create one may write it as well. -/
inductive Access
  | read
  | write
  | create
deriving DecidableEq, Repr

structure Address where
  place : Place
  access : Access := .create
  /-- Whether the database is taken to stay as it is.  It may be created, but is not written. -/
  fixed : Bool := false
deriving DecidableEq, Repr

namespace Address

def mayWrite (a : Address) : Bool := a.access != .read && !a.fixed

def mayCreate (a : Address) : Bool := a.access == .create

end Address

/-! ## 2. Parameters -/

/-- The text in front of the first `c`, and the text behind it if there is one. -/
def cutAt (c : Char) (cs : List Char) : List Char × Option (List Char) :=
  match cs.dropWhile (· != c) with
  | [] => (cs, none)
  | _ :: rest => (cs.takeWhile (· != c), some rest)

/-- Names with values, between ampersands.  A name without a value has an empty one. -/
def parameters (decode : List Char → String) (cs : List Char) : List (String × String) :=
  let parts := ((String.ofList cs).splitOn "&").filter (· != "")
  parts.map fun part =>
    let (name, value) := cutAt '=' part.toList
    (decode name, decode (value.getD []))

/-- The text that bytes spell; no word that anything is called by, if they spell none. -/
def textOfBytes (bytes : List UInt8) : String :=
  (String.fromUTF8? ⟨bytes.toArray⟩).getD "\ufffd"

/-- A part of the parameters of an address, where a plus sign is a space. -/
def formText (cs : List Char) : String :=
  textOfBytes (Text.percentDecoded (cs.map fun c => if c == '+' then ' ' else c))

/-- A part of a locator.  It ends before a zero byte. -/
def locatorText (cs : List Char) : String :=
  textOfBytes ((Text.percentDecoded cs).takeWhile (· != 0))

/-- What parameters ask for. -/
structure Request where
  access : Access := .create
  volatile : Bool := false
  fixed : Bool := false
  /-- By what means the file is reached. -/
  means : Option String := none

namespace Request

/-- A parameter of an address.  There are no others. -/
def with? (r : Request) : String × String → Option Request
  | ("mode", "ro") => some { r with access := .read }
  | ("mode", "rw") | ("mode", "rwc") => some r
  | ("mode", "memory") => some { r with volatile := true }
  | ("cache", "private") | ("cache", "shared") => some r
  | ("immutable", "true") | ("immutable", "1") => some { r with fixed := true }
  | ("immutable", "false") | ("immutable", "0") => some { r with fixed := false }
  | ("vfs", name) => some { r with means := some name }
  | _ => none

/-- A parameter of a locator.  It may not ask for more access than there is, except to a database
in memory. -/
def withInner? (r : Request) : String × String → Option Request
  | ("mode", "ro") => some { r with access := .read, volatile := false }
  | ("mode", "rw") =>
    if r.volatile || r.access != .read then some { r with access := .write, volatile := false }
    else none
  | ("mode", "rwc") =>
    if r.volatile || r.access == .create then some { r with access := .create, volatile := false }
    else none
  | ("mode", "memory") => some { r with access := .create, volatile := true }
  | ("mode", _) => none
  | ("cache", "private") | ("cache", "shared") => some r
  | ("cache", _) => none
  | ("vfs", name) => some { r with means := some name }
  | _ => some r

/-- Whether the value of a parameter says yes: by a word, or by a number other than zero. -/
def isYes (value : String) : Bool :=
  let digits := value.toList.takeWhile Char.isDigit
  let number := digits.foldl (fun n d => n * 10 + (d.toNat - '0'.toNat)) 0
  if digits.isEmpty then ["on", "yes", "true"].contains value.toLower
  else number < Nat.pow 2 31 && number % 256 != 0

/-- All parameters of a locator; of several that say whether the database is fixed the first one
counts. -/
def withAllInner? (r : Request) (ps : List (String × String)) : Option Request := do
  let ps := ps.filter (·.1 != "")
  let r ← ps.foldlM withInner? r
  pure { r with fixed := (ps.lookup "immutable").any isYes }

/-- The means by which files are reached.  One other means knows no files. -/
def fileMeans : List String := ["unix", "unix-none", "unix-dotfile", "unix-excl"]

/-- What is asked for at a path. -/
def address? (r : Request) (path : String) : Option Address :=
  let means := r.means.getD "unix"
  if means == "memdb" then some { place := .volatile, access := r.access, fixed := r.fixed }
  else if !fileMeans.contains means then none
  else if r.volatile || path == "" || path == ":memory:" then
    some { place := .volatile, access := r.access }
  else some { place := .file path, access := r.access, fixed := r.fixed }

end Request

/-! ## 3. Addresses -/

namespace Address

/-- Takes a text away from the front, as often as it stands there. -/
def withoutFront (front : List Char) : Nat → List Char → List Char
  | 0, cs => cs
  | fuel + 1, cs =>
    if front.isPrefixOf cs then withoutFront front fuel (cs.drop front.length) else cs

/-- An address without its scheme, in either of its two forms. -/
def withoutScheme (text : String) : List Char :=
  let cs := ("sqlite:" ++ text).toList
  let cs := withoutFront "sqlite://".toList cs.length cs
  withoutFront "sqlite:".toList cs.length cs

/-- The path of a locator behind its scheme.  An authority can only be this machine. -/
def withoutAuthority? : List Char → Option (List Char)
  | '/' :: '/' :: cs =>
    let authority := String.ofList (cs.takeWhile (· != '/'))
    if authority == "" || authority == "localhost" then some (cs.dropWhile (· != '/')) else none
  | cs => some cs

/-- A locator behind its scheme, for a given request.  What follows a hash sign does not
count. -/
def ofLocator? (r : Request) (cs : List Char) : Option Address := do
  let cs ← withoutAuthority? (cs.takeWhile (· != '#'))
  let (path, query) := cutAt '?' cs
  let r ← r.withAllInner? (parameters locatorText (query.getD []))
  r.address? (locatorText path)

/-- Reads an address.  The name `:memory:` asks for a database in memory.  Where the address says
by itself how the file is to be treated, its path is no locator. -/
def ofText? (text : String) : Option Address := do
  let (name, query) := cutAt '?' (withoutScheme text)
  let held := String.ofList name == ":memory:"
  let r ← (parameters formText (query.getD [])).foldlM Request.with? { volatile := held }
  let path ← if held then some "" else String.fromUTF8? ⟨(Text.percentDecoded name).toArray⟩
  if r.fixed || r.means.isSome then
    r.address? (String.ofList (path.toList.takeWhile (· != '\x00')))
  else if path.toList.contains '\x00' then none
  else if path.startsWith "file:" then ofLocator? r (path.toList.drop 5)
  else r.address? path

end Address

end Backlog
