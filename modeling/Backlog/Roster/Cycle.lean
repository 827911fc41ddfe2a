/-
# Cycles that a batch would close

Before a batch is inserted, the stored edges and those of the batch are read as one waiting
graph over the stored and the new ids.  Edges with an end outside are left out: they block
nothing as long as that end is not stored.

* `Roster.waitGraph`: that graph;
* `Roster.cycle?`: the least id that a sweep of the graph leaves behind.
-/
import Backlog.Graph
import Backlog.Roster

namespace Backlog

/-- The least of some ids. -/
def leastId? : List JobId → Option JobId
  | [] => none
  | i :: rest => some (rest.foldl (fun a b => if b.le a then b else a) i)

namespace Roster

/-- The ids that are stored or arrive with the batch, each once. -/
def idsWith (r : Roster) (batch : List Submission) : List JobId :=
  (r.jobs.map Job.id ++ batch.map Submission.id).eraseDups

/-- The waiting graph over the stored and the new ids. -/
def waitGraph (r : Roster) (batch : List Submission) : WaitGraph JobId :=
  let ids := r.idsWith batch
  { nodes := ids
    edges := ((r.edges.all ++ batch.flatMap Submission.edges).filter fun e =>
      ids.contains e.job && ids.contains e.waitsOn).map fun e => (e.job, e.waitsOn) }

/-- The job that is named when inserting the batch would close a cycle. -/
def cycle? (r : Roster) (batch : List Submission) : Option JobId :=
  leastId? (r.waitGraph batch).leftovers

end Roster

end Backlog
