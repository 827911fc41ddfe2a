/-
# The program

Reads the files that a run may need, runs it, prints what it prints and saves its database.
-/
import Backlog.Cli
import Backlog.Text.Uuid
import Std.Time.DateTime.Timestamp

namespace Backlog.Cli

/-- Takes what stands at one stage of a path into a directory. -/
def loadStage (d : Directory) (path : String) : IO Directory := do
  try
    return d.put path (.ofBytes (← IO.FS.readBinFile path))
  catch
    | .noFileOrDirectory .. => return d
    | .inappropriateType .. => return d.put path .directory
    | e => return d.put path (.unreadable (.other e.toString))

/-- Takes what stands along a path into a directory, as far as it leads through directories. -/
def loadPath (d : Directory) (p : Path) : IO Directory :=
  let load (d : Directory) (stage : Path) :=
    if d.hasDirectory stage.parent.resolved then loadStage d stage.toText else pure d
  p.stages.foldlM load d

/-- Saves the database that a run leaves under a path. -/
def saveDatabase (d : Directory) (p : Path) : IO Unit := do
  if let some (.database content) := d.found? p then
    IO.FS.writeBinFile p.toText content.toBytes

/-- The time, and random ids. -/
def drawChance : IO Chance := do
  let now ← Std.Time.Timestamp.now
  let bytes ← IO.getRandomBytes 16
  let seed := bytes.data.foldl (fun n b => n * 256 + b.toNat) 0
  return {
    now := Int64.ofInt now.toMillisecondsSinceUnixEpoch.val
    fresh := fun i => ⟨Text.uuid (seed + i)⟩ }

end Backlog.Cli

open Backlog Backlog.Cli in
def main (args : List String) : IO UInt32 := do
  match Invocation.ofArguments args with
  | .error halt =>
    halt.lines.forM IO.println
    if halt = .refused then IO.eprintln "error: bad arguments; for more, try --help"
    return halt.status
  | .ok i =>
    let files ← (i.files.map Path.ofText).foldlM loadPath {}
    let database? := (i.databasePath? files).map fun path => (Path.ofText path).resolved
    let directory ← database?.elim (pure files) (loadPath files)
    let report := i.run directory (← drawChance)
    report.lines.forM fun line => IO.println line.text
    database?.forM (saveDatabase report.directory)
    if let some failure := report.failure? then IO.eprintln s!"Error: {failure.message}"
    return report.status
