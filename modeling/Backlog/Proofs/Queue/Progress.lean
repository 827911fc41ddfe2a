/-
# When nothing can be handed out

Nothing runs, everything is due, and still nothing may be handed out: how can that be?  A batch
that closes a cycle of rows is turned down, but rows are not all that jobs wait on.  A job also
waits on the head of its queue, and nothing keeps the head of a queue from waiting, by a row, on a
job that stands behind it.

* `WaitsByRow`, `BehindHead`: the two ways in which a job waits on another one;
* `Stalled`: every job waits, and none of them belongs to the migration queue;
* `eligible_eq_nil_iff`: nothing may be handed out exactly if all jobs are stalled;
* `Stalled.head_waits`: rows alone never lead in a circle (`Reachable.acyclic`), so the circle goes
  through the head of a queue, and on through a job that stands behind this head;
* `progress_unless_head_waits`: **this is the only way in which an index at rest gets stuck**, and
  `crossed_wedged` shows one that is.
-/
import Backlog.Proofs.Graph.Acyclic
import Backlog.Proofs.Heads
import Mathlib

namespace Backlog

open Relation

/-! ## 1. Jobs at rest -/

/-- Where nothing runs, the disciplines agree on the heads of queues. -/
theorem Discipline.head?_of_resting {jobs : List Job} (h : ∀ j ∈ jobs, j.running = false)
    (d : Discipline) (q : String) : d.head? q jobs = runToCompletion.head? q jobs := by
  have hmembers : d.members q jobs = runToCompletion.members q jobs := by
    refine List.filter_congr fun j hj => ?_
    cases d with
    | runToCompletion => rfl
    | pipelined => simp [counts, h j hj]
  rw [head?, hmembers, head?]

theorem Roster.eligible_of_resting {r : Roster} (h : ∀ j ∈ r.jobs, j.running = false)
    (d : Discipline) (now : Int64) : r.eligible now d = r.eligible now .runToCompletion := by
  have hheads : r.heads d = r.heads .runToCompletion := by
    refine List.foldl_ext _ _ _ fun table j hj => ?_
    cases d with
    | runToCompletion => rfl
    | pipelined => simp [Discipline.counts, h j hj]
  simp only [eligible, hheads]

/-! ## 2. What jobs wait on -/

/-- `a` waits on `b` by a stored row. -/
def WaitsByRow (x : MemoryIndex) (a b : Job) : Prop :=
  b ∈ x.roster.jobs ∧ Edge.mk a.id b.id ∈ x.store.inner.edges

/-- `b` heads the queue of `a`, and `a` does not. -/
def BehindHead (x : MemoryIndex) (a b : Job) : Prop :=
  ∃ q, a.queue = some q ∧ x.discipline.head? q x.roster.jobs = some b ∧ b ≠ a

/-- `a` cannot be handed out before `b` is gone. -/
def WaitsFor (x : MemoryIndex) (a b : Job) : Prop := WaitsByRow x a b ∨ BehindHead x a b

/-- No job belongs to the migration queue, and each waits for one. -/
def Stalled (x : MemoryIndex) : Prop :=
  ∀ j ∈ x.roster.jobs, j.queue ≠ some migrationQueue ∧ ∃ k, WaitsFor x j k

variable {x : MemoryIndex}

theorem WaitsFor.mem {a b : Job} (h : WaitsFor x a b) : b ∈ x.roster.jobs := by
  rcases h with h | ⟨q, -, hhead, -⟩
  · exact h.1
  · exact (mem_of_head? hhead).1

/-- The roster looks for rows where they are filed, and finds those of the tables. -/
theorem isBlocked_iff (h : InStep x.roster x.store.inner) {j : Job} :
    x.roster.isBlocked j.id = true ↔ ∃ k, WaitsByRow x j k := by
  simp only [Roster.isBlocked, h.same_edges, List.any_eq_true, List.mem_filter, beq_iff_eq]
  constructor
  · rintro ⟨⟨job, waitsOn⟩, ⟨he, rfl⟩, k, hk, rfl⟩
    exact ⟨k, hk, he⟩
  · rintro ⟨k, hk, he⟩
    exact ⟨⟨j.id, k.id⟩, ⟨he, rfl⟩, k, hk, rfl⟩

theorem mem_eligible_of_resting (h : Reachable x) {now : Int64} {j : Job}
    (hrest : ∀ j ∈ x.roster.jobs, j.running = false)
    (hdue : ∀ j ∈ x.roster.jobs, j.isDue now = true) :
    j ∈ x.eligible now ↔ j ∈ x.roster.jobs ∧
      (∀ q, j.queue = some q → x.discipline.head? q x.roster.jobs = some j) ∧ x.roster.Free j := by
  simp only [Index.eligible, Roster.eligible_of_resting hrest x.discipline,
    Discipline.head?_of_resting hrest x.discipline]
  rw [Roster.mem_eligible_runToCompletion_iff h.inStep.roster_unique]
  constructor
  · rintro ⟨hj, -, -, hhead, hfree⟩
    exact ⟨hj, hhead, hfree⟩
  · rintro ⟨hj, hhead, hfree⟩
    exact ⟨hj, hrest j hj, hdue j hj, hhead, hfree⟩

/-- The head of the migration queue may always be handed out. -/
theorem exists_eligible_of_migration (h : Reachable x) {now : Int64}
    (hrest : ∀ j ∈ x.roster.jobs, j.running = false)
    (hdue : ∀ j ∈ x.roster.jobs, j.isDue now = true) {j : Job} (hj : j ∈ x.roster.jobs)
    (hq : j.queue = some migrationQueue) : ∃ m, m ∈ x.eligible now := by
  obtain ⟨m, hm⟩ := exists_head? (d := .runToCompletion) hj hq rfl
  obtain ⟨hmmem, hmq, -⟩ := mem_of_head? hm
  refine ⟨m, (mem_eligible_of_resting h hrest hdue).mpr ⟨hmmem, fun q hq' => ?_, .inl hmq⟩⟩
  obtain rfl : migrationQueue = q := Option.some.inj (hmq.symm.trans hq')
  rw [Discipline.head?_of_resting hrest]
  exact hm

/-- While the migration queue is empty: who may not be handed out waits. -/
theorem exists_waitsFor_of_not_eligible (h : Reachable x) {now : Int64}
    (hrest : ∀ j ∈ x.roster.jobs, j.running = false)
    (hdue : ∀ j ∈ x.roster.jobs, j.isDue now = true)
    (hmig : ∀ j ∈ x.roster.jobs, j.queue ≠ some migrationQueue) {j : Job}
    (hj : j ∈ x.roster.jobs) (hnot : j ∉ x.eligible now) : ∃ k, WaitsFor x j k := by
  by_cases hblocked : x.roster.isBlocked j.id = true
  · obtain ⟨k, hk⟩ := (isBlocked_iff h.inStep).mp hblocked
    exact ⟨k, .inl hk⟩
  by_cases hhead : ∀ q, j.queue = some q → x.discipline.head? q x.roster.jobs = some j
  · exact absurd ((mem_eligible_of_resting h hrest hdue).mpr
      ⟨hj, hhead, .inr ⟨hmig, by simpa using hblocked⟩⟩) hnot
  · simp only [not_forall] at hhead
    obtain ⟨q, hq, hne⟩ := hhead
    have hcounts : x.discipline.counts j = true := by
      cases x.discipline <;> simp [Discipline.counts, hrest j hj]
    obtain ⟨k, hk⟩ := exists_head? hj hq hcounts
    exact ⟨k, .inr ⟨q, hq, hk, fun heq => hne (heq ▸ hk)⟩⟩

theorem eligible_eq_nil_iff (h : Reachable x) {now : Int64}
    (hrest : ∀ j ∈ x.roster.jobs, j.running = false)
    (hdue : ∀ j ∈ x.roster.jobs, j.isDue now = true) : x.eligible now = [] ↔ Stalled x := by
  rw [List.eq_nil_iff_forall_not_mem]
  constructor
  · intro hnone
    have hmig : ∀ j ∈ x.roster.jobs, j.queue ≠ some migrationQueue := by
      intro j hj hq
      obtain ⟨m, hm⟩ := exists_eligible_of_migration h hrest hdue hj hq
      exact hnone m hm
    intro j hj
    exact ⟨hmig j hj, exists_waitsFor_of_not_eligible h hrest hdue hmig hj (hnone j)⟩
  · intro hstalled j hj
    obtain ⟨hjmem, hhead, hfree⟩ := (mem_eligible_of_resting h hrest hdue).mp hj
    obtain ⟨hq, k, hk⟩ := hstalled j hjmem
    rcases hk with hrow | ⟨q, hjq, hkhead, hne⟩
    · obtain ⟨-, hblocked⟩ := hfree.resolve_left hq
      rw [(isBlocked_iff h.inStep).mpr ⟨k, hrow⟩] at hblocked
      exact absurd hblocked (by simp)
    · exact hne (Option.some.inj (hkhead.symm.trans (hhead q hjq)))

/-! ## 3. The circle -/

/-- A way along rows and queues is along rows only, or passes the head of a queue. -/
theorem rows_or_head {a b : Job} (h : TransGen (WaitsFor x) a b) :
    TransGen (WaitsByRow x) a b ∨
      ∃ u c, ReflTransGen (WaitsFor x) a u ∧ BehindHead x u c ∧ ReflTransGen (WaitsFor x) c b := by
  induction h with
  | single hab =>
    rcases hab with hrow | hhead
    · exact .inl (.single hrow)
    · exact .inr ⟨_, _, .refl, hhead, .refl⟩
  | @tail b e hab hbe ih =>
    rcases hbe with hrow | hhead
    · rcases ih with hrows | ⟨u, c, hau, huc, hcb⟩
      · exact .inl (hrows.tail hrow)
      · exact .inr ⟨u, c, hau, huc, hcb.tail (.inl hrow)⟩
    · exact .inr ⟨b, e, hab.to_reflTransGen, hhead, .refl⟩

/-- Rows alone never lead in a circle. -/
theorem not_transGen_waitsByRow (h : Reachable x) (j : Job) : ¬TransGen (WaitsByRow x) j j := by
  intro hcycle
  refine h.acyclic j.id (TransGen.lift Job.id (fun a b hab => ?_) _ _ hcycle)
  obtain ⟨hb, he⟩ := hab
  exact ⟨he, h.inStep.edge_owned _ he, List.mem_map.mpr ⟨b, h.inStep.mem_iff.mp hb, rfl⟩⟩

/-- If all jobs are stalled, the head of some queue waits for itself through others, one of which
stands behind it. -/
theorem Stalled.head_waits (hs : Stalled x) (h : Reachable x) (hne : x.roster.jobs ≠ []) :
    ∃ q k, x.discipline.head? q x.roster.jobs = some k ∧ TransGen (WaitsFor x) k k ∧
      ∃ u ∈ x.roster.jobs, u.queue = some q ∧ u ≠ k ∧ TransGen (WaitsFor x) k u := by
  have hnext : ∀ j ∈ x.roster.jobs, ∃ k ∈ x.roster.jobs, WaitsFor x j k := by
    intro j hj
    obtain ⟨k, hk⟩ := (hs j hj).2
    exact ⟨k, hk.mem, hk⟩
  obtain ⟨a, -, hcycle⟩ := exists_cycle hne hnext
  rcases rows_or_head hcycle with hrows | ⟨u, k, hau, huk, hka⟩
  · exact absurd hrows (not_transGen_waitsByRow h a)
  · -- the circle is entered behind `u`, at the head of its queue, and comes back to `u`
    have hback : ReflTransGen (WaitsFor x) k u := hka.trans hau
    have hround : TransGen (WaitsFor x) k k := .tail' hback (.inr huk)
    obtain ⟨q, huq, hhead, hku⟩ := huk
    have hwaits : TransGen (WaitsFor x) k u :=
      (reflTransGen_iff_eq_or_transGen.mp hback).resolve_left hku.symm
    obtain ⟨w, -, hwu⟩ := TransGen.tail'_iff.mp hwaits
    exact ⟨q, k, hhead, hround, u, hwu.mem, huq, hku.symm, hwaits⟩

/-! ## 4. Progress -/

/-- **What keeps an index at rest from handing anything out.**  Some job is stored, none runs and
all are due.  Then nothing may be handed out exactly if all jobs are stalled; and if they are, the
head of some queue waits for itself, through rows and queues, and for a job of its queue that stands
behind it.  This holds after every run, under either discipline. -/
theorem progress_unless_head_waits (h : Reachable x) {now : Int64} (hne : x.roster.jobs ≠ [])
    (hrest : ∀ j ∈ x.roster.jobs, j.running = false)
    (hdue : ∀ j ∈ x.roster.jobs, j.isDue now = true) :
    (x.eligible now = [] ↔ Stalled x) ∧
      (x.eligible now = [] →
        ∃ q k, x.discipline.head? q x.roster.jobs = some k ∧ TransGen (WaitsFor x) k k ∧
          ∃ u ∈ x.roster.jobs, u.queue = some q ∧ u ≠ k ∧ TransGen (WaitsFor x) k u) := by
  have hiff := eligible_eq_nil_iff h hrest hdue
  exact ⟨hiff, fun hnil => (hiff.mp hnil).head_waits h hne⟩

/-- A job that waits on the next one of its own queue. -/
def crossedBatch : List Submission :=
  let first : Job := { id := ⟨"first"⟩, factory := "http", queue := some "Q", created := 1 }
  let second : Job := { first with id := ⟨"second"⟩, created := 2 }
  [Submission.waitingOn { job := first } second.id, { job := second }]

def crossed : MemoryIndex := (Index.fresh .runToCompletion).run [.insert crossedBatch]

theorem crossed_reachable : Reachable crossed := reachable_run .runToCompletion (by decide)

theorem crossed_jobs : crossed.roster.jobs = crossedBatch.map Submission.job := by cbv

theorem crossed_eligible : crossed.eligible 100 = [] := by cbv

theorem progress_crossed :
    (crossed.eligible 100 = [] ↔ Stalled crossed) ∧
      (crossed.eligible 100 = [] → ∃ q k,
        crossed.discipline.head? q crossed.roster.jobs = some k ∧
          TransGen (WaitsFor crossed) k k ∧
          ∃ u ∈ crossed.roster.jobs, u.queue = some q ∧ u ≠ k ∧
            TransGen (WaitsFor crossed) k u) :=
  progress_unless_head_waits crossed_reachable (crossed_jobs ▸ by decide)
    (crossed_jobs ▸ by decide) (crossed_jobs ▸ by decide)

/-- The batch is taken, and nothing is handed out any more. -/
theorem crossed_wedged :
    ¬∀ (x : MemoryIndex) (now : Int64), Reachable x → x.roster.jobs ≠ [] →
      (∀ j ∈ x.roster.jobs, j.running = false) → (∀ j ∈ x.roster.jobs, j.isDue now = true) →
        x.eligible now ≠ [] := by
  intro h
  exact h crossed 100 crossed_reachable (crossed_jobs ▸ by decide) (crossed_jobs ▸ by decide)
    (crossed_jobs ▸ by decide) crossed_eligible

end Backlog
