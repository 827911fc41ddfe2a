/-
# The job that is named when a batch closes a circle

A sweep leaves behind everybody who cannot start: the jobs of a circle, and with them those that
wait on a circle from outside.  The least of all their ids is reported.  Nothing is done to tell the
two kinds apart, so a job may be named that is in no circle at all.

* `InCircle`, `Snared`: a job that waits on itself, and one that waits on such a job;
* `Roster.cycle?_eq_some_iff_least`: the job that is named;
* `named_in_circle_iff`: **it is in a circle exactly if some job of a circle comes, in the order of
  ids, before every job that only hangs on one**.
-/
import Backlog.Proofs.AllOrNothing

namespace Backlog

open Relation

variable {x : MemoryIndex} {r : Roster} {batch : List Submission} {id : JobId}

/-- With the batch, `id` waits on itself, directly or through others. -/
def InCircle (jobs : List Job) (edges : List Edge) (batch : List Submission) (id : JobId) : Prop :=
  TransGen (WaitsWith jobs edges batch) id id

/-- With the batch, `id` waits on a job that waits on itself; it may be that job. -/
def Snared (jobs : List Job) (edges : List Edge) (batch : List Submission) (id : JobId) : Prop :=
  ∃ c, TransGen (WaitsWith jobs edges batch) id c ∧ InCircle jobs edges batch c

theorem InCircle.snared {jobs : List Job} {edges : List Edge}
    (h : InCircle jobs edges batch id) : Snared jobs edges batch id := ⟨id, h, h⟩

theorem Roster.waitGraph_snared_iff :
    (r.waitGraph batch).Snared id ↔ Snared r.jobs r.edges.all batch id := by
  simp only [WaitGraph.Snared, WaitGraph.OnCycle, WaitGraph.path_iff_transGen, waitGraph_edge_eq,
    Snared, InCircle]

/-- The least of those that wait on a circle is named. -/
theorem Roster.cycle?_eq_some_iff_least :
    r.cycle? batch = some id ↔
      Snared r.jobs r.edges.all batch id ∧
        ∀ j, Snared r.jobs r.edges.all batch j → id.le j = true := by
  simp only [cycle?, leastId?_eq_some_iff, WaitGraph.mem_leftovers_iff (r.waitGraph_wellFormed batch),
    waitGraph_snared_iff]

/-- **What is known of the job that is named.**  It is the least of those that wait on a circle, and
it is in one itself exactly if some job of a circle comes before every job that only hangs on one;
so it always is where nobody does that. -/
theorem named_in_circle_iff (h : x.roster.cycle? batch = some id) :
    x.insert batch = .error (.cycle id) ∧
      Snared x.roster.jobs x.roster.edges.all batch id ∧
      (∀ j, Snared x.roster.jobs x.roster.edges.all batch j → id.le j = true) ∧
      (InCircle x.roster.jobs x.roster.edges.all batch id ↔
        ∃ c, InCircle x.roster.jobs x.roster.edges.all batch c ∧
          ∀ j, Snared x.roster.jobs x.roster.edges.all batch j →
            ¬InCircle x.roster.jobs x.roster.edges.all batch j → c.le j = true) := by
  obtain ⟨hsnared, hleast⟩ := Roster.cycle?_eq_some_iff_least.mp h
  refine ⟨by simp [Index.insert, h], hsnared, hleast, ?_⟩
  constructor
  · intro hin
    exact ⟨id, hin, fun j hj _ => hleast j hj⟩
  · rintro ⟨c, hc, hbefore⟩
    by_contra hout
    -- then `id` hangs on a circle, and `c` comes both before and after it
    have hle : c.le id = true := hbefore id hsnared hout
    have hge : id.le c = true := hleast c hc.snared
    obtain rfl : c = id := JobId.le_antisymm hle hge
    exact hout hc

/-- Two jobs that wait on each other, and a third that waits on both and comes last by its id. -/
def closingBatch : List Submission :=
  [{ job := { id := ⟨"c"⟩, factory := "Test", created := 1 },
     edges := [⟨⟨"c"⟩, ⟨"a"⟩⟩, ⟨⟨"c"⟩, ⟨"b"⟩⟩] },
   { job := { id := ⟨"a"⟩, factory := "Test", created := 2 }, edges := [⟨⟨"a"⟩, ⟨"b"⟩⟩] },
   { job := { id := ⟨"b"⟩, factory := "Test", created := 3 }, edges := [⟨⟨"b"⟩, ⟨"a"⟩⟩] }]

/-- One of the two is named. -/
theorem closingBatch_named :
    let x := Index.fresh .runToCompletion
    x.roster.cycle? closingBatch = some ⟨"a"⟩ ∧
      x.insert closingBatch = .error (.cycle ⟨"a"⟩) ∧
      InCircle x.roster.jobs x.roster.edges.all closingBatch ⟨"a"⟩ := by
  intro x
  have hnamed : x.roster.cycle? closingBatch = some ⟨"a"⟩ := by cbv
  obtain ⟨hanswer, -, hleast, hiff⟩ := named_in_circle_iff hnamed
  refine ⟨hnamed, hanswer, hiff.mpr ⟨⟨"a"⟩, ?_, fun j hj _ => hleast j hj⟩⟩
  have hout : WaitsWith x.roster.jobs x.roster.edges.all closingBatch ⟨"a"⟩ ⟨"b"⟩ := by
    simp [WaitsWith, closingBatch, Submission.id]
  have hback : WaitsWith x.roster.jobs x.roster.edges.all closingBatch ⟨"b"⟩ ⟨"a"⟩ := by
    simp [WaitsWith, closingBatch, Submission.id]
  exact .tail (.single hout) hback

/-- Two jobs that wait on each other, and a third that waits on one of them and on which nobody
waits. -/
def hangingBatch : List Submission :=
  [{ job := { id := ⟨"a"⟩, factory := "Test", created := 1 }, edges := [⟨⟨"a"⟩, ⟨"b"⟩⟩] },
   { job := { id := ⟨"b"⟩, factory := "Test", created := 2 }, edges := [⟨⟨"b"⟩, ⟨"c"⟩⟩] },
   { job := { id := ⟨"c"⟩, factory := "Test", created := 3 }, edges := [⟨⟨"c"⟩, ⟨"b"⟩⟩] }]

/-- The third one is named, though there is no way back to it. -/
theorem hangingBatch_named :
    let x := Index.fresh .runToCompletion
    x.roster.cycle? hangingBatch = some ⟨"a"⟩ ∧
      x.insert hangingBatch = .error (.cycle ⟨"a"⟩) ∧
      ¬InCircle x.roster.jobs x.roster.edges.all hangingBatch ⟨"a"⟩ := by
  intro x
  have hnamed : x.roster.cycle? hangingBatch = some ⟨"a"⟩ := by cbv
  refine ⟨hnamed, by simp [Index.insert, hnamed], fun hcircle => ?_⟩
  obtain ⟨b, -, hb⟩ := TransGen.tail'_iff.mp hcircle
  have hedges : x.roster.edges.all = [] := by cbv
  have hedge : Edge.mk b ⟨"a"⟩ ∈ [] ++ hangingBatch.flatMap Submission.edges := hedges ▸ hb.1
  simp [hangingBatch] at hedge

end Backlog
