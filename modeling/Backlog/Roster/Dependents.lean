/-
# The jobs that wait on a job

The edges that lead to a job, directly or through others, layer by layer: first the edges that
wait on the job itself, then those that wait on a job of the layer before, and so on.  A job
enters a layer once, when it is first seen, so the search ends even if edges lead in a circle.

* `Roster.edgesInto`: one layer, ordered by waiting job and, within one job, by filing order;
* `Roster.dependents`: all layers one after the other;
* `Roster.withDependents`: some jobs, and every job that waits on one of them.
-/
import Backlog.Roster

namespace Backlog

/-- The ids of `ids` that are not in `seen`, each at its first place. -/
def firstSeen (seen : List JobId) : List JobId → List JobId
  | [] => []
  | i :: rest => if i ∈ seen then firstSeen seen rest else i :: firstSeen (i :: seen) rest

namespace Roster

/-- The edges that wait on one of `ids`, by waiting job. -/
def edgesInto (r : Roster) (ids : List JobId) : List Edge :=
  (r.edges.all.filter fun e => ids.contains e.waitsOn).mergeSort fun a b => a.job.le b.job

/-- The layers from `frontier` on, at most `fuel` of them. -/
def layersFrom (r : Roster) : Nat → List JobId → List JobId → List (List Edge)
  | 0, _, _ => []
  | fuel + 1, seen, frontier =>
    match r.edgesInto frontier with
    | [] => []
    | layer =>
      let next := firstSeen seen (layer.map Edge.job)
      layer :: (if next.isEmpty then [] else r.layersFrom fuel (seen ++ next) next)

/-- Every edge that waits on `id`, directly or through others, layer by layer.  Each layer but
the last brings a job that was not seen before, so there are at most as many layers as edges,
and one more. -/
def dependents (r : Roster) (id : JobId) : List Edge :=
  (r.layersFrom (r.edges.all.length + 1) [id] [id]).flatten

/-- The jobs of `ids`, and then every other job that waits on one of them, each once. -/
def withDependents (r : Roster) (ids : List JobId) : List JobId :=
  ids ++ firstSeen ids (ids.flatMap fun id => (r.dependents id).map Edge.job)

end Roster

end Backlog
