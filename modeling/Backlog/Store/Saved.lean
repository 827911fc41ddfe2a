/-
# Databases in files

A saved database is a line that says so, followed by the relations as JSON: jobs, guards and
edges, each with its key, and the two keys that come next.

* `Database.toJson`, `Database.ofJson?`;
* `Database.toBytes`, `Database.ofBytes?`.
-/
import Backlog.Job.Codec
import Backlog.Json.Printer
import Backlog.Json.Reader
import Backlog.Store.Database

namespace Backlog

namespace Keyed

variable {α : Type}

def toJson (f : α → Json) (r : Keyed α) : Json := .array [.int r.key, f r.value]

def ofJson? (f : Json → Option α) : Json → Option (Keyed α)
  | .array [.int key, value] => if key < 0 then none else (f value).map (Keyed.mk key.toNat)
  | _ => none

end Keyed

namespace Database

/-- The names of the fields, in order. -/
def fieldNames : List String := ["jobs", "guards", "edges", "next_guard", "next_edge"]

def toJson (db : Database) : Json :=
  .object
    [("jobs", .array (db.jobs.map (Keyed.toJson Job.toJson))),
      ("guards", .array (db.guards.map (Keyed.toJson Guard.toJson))),
      ("edges", .array (db.edges.map (Keyed.toJson Edge.toJson))),
      ("next_guard", .int db.nextGuard),
      ("next_edge", .int db.nextEdge)]

def ofJson? (j : Json) : Option Database := do
  let m ← j.members? fieldNames
  pure
    { jobs := ← m.required "jobs" (Json.list? (Keyed.ofJson? Job.ofJson?))
      guards := ← m.required "guards" (Json.list? (Keyed.ofJson? Guard.ofJson?))
      edges := ← m.required "edges" (Json.list? (Keyed.ofJson? Edge.ofJson?))
      nextGuard := (← m.required "next_guard" Json.word64?).toNat
      nextEdge := (← m.required "next_edge" Json.word64?).toNat }

/-- The first line of a saved database. -/
def heading : String := "Backlog database\n"

def toBytes (db : Database) : ByteArray := (heading ++ db.toJson.compact).toUTF8

def ofBytes? (bytes : ByteArray) : Option Database :=
  let start := heading.toUTF8
  if bytes.extract 0 start.size == start then
    (Json.ofBytes? (bytes.extract start.size bytes.size)).bind ofJson?
  else none

end Database

end Backlog
