/-
# Waiting on a stored job

An edge blocks nothing while the job it names is not stored, and blocks from the moment on at which
it is.  What is looked up for a job is what is filed under its id, so that is the relation which has
to be free of circles, and the one which says who may not be handed out yet.

* `Roster.Waits`: the relation, and `Roster.isBlocked_iff_waits`: it is what blocks a job;
* `InStep.waits_iff`: filed rows block exactly those that stored rows do;
* `Reachable.not_transGen_waits`: nobody waits on itself, directly or through others, and
  `Reachable.exists_unblocked`: **whoever waits does so, in the end, on a stored job that waits on
  nobody** (`waits_acyclic`);
* `Roster.waiting_eligible_iff`: only the head of the migration queue is ever handed out while it
  waits, so nobody is exactly if that head runs or waits on nobody (`eligible_waits_on_nobody_iff`);
* `Unencumbered`: no stored row belongs to a migration job.  Runs keep that if no row is brought in
  for one, so in such runs nobody is handed out while waiting.
-/
import Backlog.Proofs.Graph.Acyclic
import Backlog.Proofs.Heads
import Mathlib

namespace Backlog

open Relation

/-! ## 1. Waiting -/

namespace Roster

/-- A row filed under `a` names the stored job `b`. -/
def Waits (r : Roster) (a b : JobId) : Prop :=
  Held r.jobs b ∧ ∃ e ∈ r.edges.rowsOf a, e.waitsOn = b

theorem isBlocked_iff_waits {r : Roster} {id : JobId} :
    r.isBlocked id = true ↔ ∃ b, r.Waits id b := by
  simp only [isBlocked, Waits, Held, List.any_eq_true, List.mem_map, beq_iff_eq]
  constructor
  · rintro ⟨e, he, k, hk, hid⟩
    exact ⟨e.waitsOn, ⟨k, hk, hid⟩, e, he, rfl⟩
  · rintro ⟨b, ⟨k, hk, hid⟩, e, he, rfl⟩
    exact ⟨e, he, k, hk, hid⟩

theorem isBlocked_eq_false_iff {r : Roster} {id : JobId} :
    r.isBlocked id = false ↔ ∀ b, ¬r.Waits id b := by
  rw [Bool.eq_false_iff, ne_eq, isBlocked_iff_waits, not_exists]

end Roster

/-- The rows filed under an id block whom the stored rows block. -/
theorem InStep.waits_iff {r : Roster} {t : Tables} (h : InStep r t) {a b : JobId} :
    r.Waits a b ↔ t.Waits a b := by
  simp only [Roster.Waits, Tables.Waits, h.same_edges, h.matched.held_iff, List.mem_filter,
    beq_iff_eq]
  constructor
  · rintro ⟨hb, ⟨job, waitsOn⟩, ⟨he, rfl⟩, rfl⟩
    exact ⟨he, h.edge_owned _ he, hb⟩
  · rintro ⟨he, -, hb⟩
    exact ⟨hb, ⟨a, b⟩, ⟨he, rfl⟩, rfl⟩

/-! ## 2. No circles -/

variable {x : MemoryIndex}

theorem Reachable.not_transGen_waits (h : Reachable x) (id : JobId) :
    ¬TransGen x.roster.Waits id id := fun hcycle =>
  h.acyclic id (TransGen.mono (fun _ _ => h.inStep.waits_iff.mp) _ _ hcycle)

/-- Going from a stored job to one that it waits on comes to an end. -/
theorem Reachable.exists_unblocked (h : Reachable x) {j : Job} (hj : j ∈ x.roster.jobs) :
    ∃ k ∈ x.roster.jobs, ReflTransGen x.roster.Waits j.id k.id ∧
      x.roster.isBlocked k.id = false := by
  by_contra hnone
  -- otherwise all those that `j` leads to lead on
  obtain ⟨a, -, hcycle⟩ := exists_transGen_cycle (R := fun a b => x.roster.Waits a.id b.id) hj
    fun a ha hja => by
      have hblocked : x.roster.isBlocked a.id = true := by
        by_contra hfree
        exact hnone ⟨a, ha, hja.lift Job.id (fun _ _ hab => hab), by simpa using hfree⟩
      obtain ⟨_, hab⟩ := Roster.isBlocked_iff_waits.mp hblocked
      obtain ⟨b, hb, rfl⟩ := List.mem_map.mp hab.1
      exact ⟨b, hb, hab⟩
  exact h.not_transGen_waits a.id (TransGen.lift Job.id (fun _ _ hab => hab) _ _ hcycle)

/-- **Nobody ever waits in a circle.**  Batches must be well-formed, but their rows may name jobs
that are yet to come, or that come again after they have been deleted.  So as long as any job is
stored, one of the stored jobs waits on none. -/
theorem waits_acyclic (d : Discipline) {changes : List Change} (h : ∀ c ∈ changes, c.WellFormed) :
    let r := ((Index.fresh d).run changes).roster
    (∀ id, ¬TransGen r.Waits id id) ∧ (r.jobs ≠ [] → ∃ j ∈ r.jobs, ∀ b, ¬r.Waits j.id b) := by
  intro r
  have hx : Reachable ((Index.fresh d).run changes) := reachable_run d h
  refine ⟨hx.not_transGen_waits, fun hne => ?_⟩
  obtain ⟨j, hj⟩ := List.exists_mem_of_ne_nil _ hne
  obtain ⟨k, hk, -, hfree⟩ := hx.exists_unblocked hj
  exact ⟨k, hk, Roster.isBlocked_eq_false_iff.mp hfree⟩

/-- A row names a job that is yet to come.  That job may not wait in its turn, but when it has come
and gone the row is gone too, and then it may. -/
def dormantRun : List Change :=
  let early : Job := { id := ⟨"early"⟩, factory := "http", created := 1 }
  let late : Job := { early with id := ⟨"late"⟩, created := 2 }
  [.insert [Submission.waitingOn { job := early } late.id],
    .insert [Submission.waitingOn { job := late } early.id], .insert [{ job := late }],
    .delete [late.id], .reopen .pipelined, .insert [Submission.waitingOn { job := late } early.id]]

theorem waits_acyclic_dormantRun :
    let r := ((Index.fresh .runToCompletion).run dormantRun).roster
    (∀ c ∈ dormantRun, c.WellFormed) ∧ r.isBlocked ⟨"late"⟩ = true ∧
      (∀ id, ¬TransGen r.Waits id id) ∧
        (r.jobs ≠ [] → ∃ j ∈ r.jobs, ∀ b, ¬r.Waits j.id b) := by
  have hw : ∀ c ∈ dormantRun, c.WellFormed := by decide
  exact ⟨hw, by cbv, waits_acyclic .runToCompletion hw⟩

/-! ## 3. Who is handed out while it waits -/

theorem Roster.waiting_eligible_iff {r : Roster} {d : Discipline} {now : Int64} {j : Job}
    (hblocked : r.isBlocked j.id = true) :
    j ∈ r.eligible now d ↔
      r.migrationHead? = some j ∧ j.running = false ∧ j.isDue now = true := by
  rw [mem_eligible_iff]
  constructor
  · rintro ⟨-, hrun, hdue, hm | ⟨-, -, hfree⟩⟩
    · exact ⟨hm, hrun, hdue⟩
    · exact absurd (hblocked.symm.trans hfree) (by simp)
  · rintro ⟨hm, hrun, hdue⟩
    exact ⟨List.mem_of_mem_filter (earliest?_mem hm), hrun, hdue, .inl hm⟩

/-- Whoever heads the migration queue is handed out once it is due, so it is enough to look at
that one. -/
theorem Roster.eligible_unblocked_iff {r : Roster} {d : Discipline} :
    (∀ now, ∀ j ∈ r.eligible now d, r.isBlocked j.id = false) ↔
      ∀ m, r.migrationHead? = some m → m.running = true ∨ r.isBlocked m.id = false := by
  constructor
  · intro hfree m hm
    by_contra hnot
    simp only [not_or, Bool.not_eq_true, Bool.not_eq_false] at hnot
    obtain ⟨hrun, hblocked⟩ := hnot
    have hdue : m.isDue m.due = true := m.isDue_iff m.due |>.mpr (Int.le_refl _)
    have hel := (waiting_eligible_iff (d := d) hblocked).mpr ⟨hm, hrun, hdue⟩
    exact absurd (hblocked.symm.trans (hfree m.due m hel)) (by simp)
  · intro hhead now j hj
    by_contra hblocked
    rw [Bool.not_eq_false] at hblocked
    obtain ⟨hm, hrun, -⟩ := (waiting_eligible_iff hblocked).mp hj
    rcases hhead j hm with hrun' | hfree
    · exact absurd (hrun.symm.trans hrun') (by simp)
    · exact absurd (hblocked.symm.trans hfree) (by simp)

/-! ## 4. Migrations that wait on nobody -/

/-- No stored row belongs to a migration job. -/
def Tables.Unencumbered (t : Tables) : Prop :=
  ∀ m ∈ t.jobs, m.isMigration = true → ∀ e ∈ t.edges, e.job ≠ m.id

/-- No migration job comes in with an edge, and nobody is moved into the migration queue. -/
def Change.Unencumbered : Change → Prop
  | insert batch => ∀ s ∈ batch, s.job.isMigration = true → s.edges = []
  | amend jobs => ∀ j ∈ jobs, j.isMigration = false
  | _ => True

namespace Tables.Unencumbered

variable {t t' : Tables}

theorem mono (h : t.Unencumbered) (hedges : ∀ e ∈ t'.edges, e ∈ t.edges)
    (hjobs : ∀ m ∈ t'.jobs, m.isMigration = true →
      ∃ k ∈ t.jobs, k.id = m.id ∧ k.isMigration = true) : t'.Unencumbered := by
  intro m hm hq e he
  obtain ⟨k, hk, hid, hkq⟩ := hjobs m hm hq
  exact hid ▸ h k hk hkq e (hedges e he)

theorem modifyFirst (h : t.Unencumbered) {id : JobId} {f : Job → Job}
    (hf : ∀ k, k.id = id → (f k).isMigration = true → (f k).id = k.id ∧ k.isMigration = true) :
    ({ t with jobs := modifyFirst (·.id == id) f t.jobs } : Tables).Unencumbered := by
  refine h.mono (fun _ he => he) fun m hm hq => ?_
  rcases mem_of_mem_modifyFirst hm with hm | ⟨k, hk, hid, rfl⟩
  · exact ⟨m, hm, rfl, hq⟩
  · obtain ⟨hkept, hkq⟩ := hf k (beq_iff_eq.mp hid) hq
    exact ⟨k, hk, hkept.symm, hkq⟩

theorem amend : ∀ (jobs : List Job) {t : Tables}, t.Unencumbered →
    (∀ j ∈ jobs, j.isMigration = false) → (t.amend jobs).Unencumbered
  | [], _, h, _ => h
  | j :: rest, t, h, hjobs => by
    have hj : (t.replace j).Unencumbered := h.modifyFirst fun _ _ hq =>
      absurd (hq.symm.trans (hjobs j List.mem_cons_self)) (by simp)
    exact amend rest hj fun k hk => hjobs k (List.mem_cons_of_mem _ hk)

/-- Rows arrive with the jobs they belong to, and a job that arrives is not there yet. -/
theorem append (h : t.Unencumbered) (howned : ∀ e ∈ t.edges, Held t.jobs e.job)
    {batch : List Submission} (hw : ∀ s ∈ batch, s.WellFormed)
    (hd : firstDuplicate (t.jobs.map Job.id) batch = none)
    (hb : ∀ s ∈ batch, s.job.isMigration = true → s.edges = []) :
    (t.append batch).Unencumbered := by
  obtain ⟨hnodup, hnew⟩ := firstDuplicate_eq_none_iff.mp hd
  intro m hm hq e he hjob
  rcases List.mem_append.mp hm with hm | hm <;> rcases List.mem_append.mp he with he | he
  · exact h m hm hq e he hjob
  · obtain ⟨s, hs, hes⟩ := List.mem_flatMap.mp he
    refine hnew s hs (List.mem_map.mpr ⟨m, hm, ?_⟩)
    rw [← hjob, (hw s hs).2 e hes]
  · obtain ⟨s, hs, rfl⟩ := List.mem_map.mp hm
    have hid : e.job = s.id := hjob
    exact hnew s hs (hid ▸ howned e he)
  · obtain ⟨s, hs, rfl⟩ := List.mem_map.mp hm
    obtain ⟨u, hu, heu⟩ := List.mem_flatMap.mp he
    have hus : u = s :=
      List.inj_on_of_nodup_map hnodup hu hs (((hw u hu).2 e heu).symm.trans hjob)
    rw [hus, hb s hs hq] at heu
    exact absurd heu (by simp)

theorem perform {y : MemoryIndex} {c : Change} (h : x.store.inner.Unencumbered) (hx : Reachable x)
    (hw : c.WellFormed) (hc : c.Unencumbered) (hxy : x.perform c = .ok y) :
    y.store.inner.Unencumbered := by
  cases c with
  | insert batch =>
    obtain ⟨-, -, hd, rfl⟩ := Index.insert_eq_ok_iff.mp hxy
    exact h.append hx.inStep.edge_owned hw hd hc
  | setRunning id running =>
    obtain ⟨-, -, -, rfl⟩ := Index.setRunning_eq_ok_iff.mp hxy
    exact h.modifyFirst fun _ _ hq => ⟨rfl, hq⟩
  | reschedule id running attempt due payload =>
    obtain ⟨-, -, -, rfl⟩ := Index.reschedule_eq_ok_iff.mp hxy
    exact h.modifyFirst fun _ _ hq => ⟨rfl, hq⟩
  | clearRunning =>
    obtain ⟨-, rfl⟩ := Index.clearRunning_eq_ok_iff.mp hxy
    refine h.mono (fun _ he => he) fun m hm hq => ?_
    obtain ⟨k, hk, rfl⟩ := List.mem_map.mp hm
    exact ⟨k, hk, rfl, hq⟩
  | amend jobs =>
    obtain ⟨-, rfl⟩ := Index.amend_eq_ok_iff.mp hxy
    exact amend _ h fun j hj => hc j (List.mem_of_mem_filter hj)
  | delete ids =>
    obtain ⟨-, rfl⟩ := Index.delete_eq_ok_iff.mp hxy
    exact h.mono (fun _ he => List.mem_of_mem_filter he)
      fun m hm hq => ⟨m, List.mem_of_mem_filter hm, rfl, hq⟩
  | reopen d =>
    obtain rfl := Index.open_eq_ok_iff.mp hxy
    exact h
  | refuse refusing =>
    obtain rfl := Except.ok.inj hxy
    exact h

theorem run (changes : List Change) {x : MemoryIndex} (h : x.store.inner.Unencumbered)
    (hx : Reachable x) (hw : ∀ c ∈ changes, c.WellFormed) (hc : ∀ c ∈ changes, c.Unencumbered) :
    (x.run changes).store.inner.Unencumbered :=
  have hboth := Index.run_induction (P := fun x => Reachable x ∧ x.store.inner.Unencumbered)
    (Q := fun c => c.WellFormed ∧ c.Unencumbered)
    (fun ⟨hx, h⟩ ⟨hw, hc⟩ hy => ⟨hx.step hw hy, h.perform hx hw hc hy⟩)
    changes ⟨hx, h⟩ fun c hcs => ⟨hw c hcs, hc c hcs⟩
  hboth.2

end Tables.Unencumbered

/-- **Who is handed out while it waits on a stored job.**  After every run and under either
discipline: nobody but the head of the migration queue, which is handed out alone then.  So nobody
ever is, exactly if that head runs or waits on nobody; and nobody is in a run that brings no row of
a migration job and moves no job into the migration queue. -/
theorem eligible_waits_on_nobody_iff (d₀ d : Discipline) {changes : List Change}
    (hw : ∀ c ∈ changes, c.WellFormed) :
    let x := (Index.fresh d₀).run changes
    (∀ now, ∀ j ∈ x.roster.eligible now d, ∀ k, x.store.inner.Waits j.id k →
      x.roster.migrationHead? = some j ∧ x.roster.eligible now d = [j]) ∧
    ((∀ now, ∀ j ∈ x.roster.eligible now d, ∀ k, ¬x.store.inner.Waits j.id k) ↔
      ∀ m, x.roster.migrationHead? = some m →
        m.running = true ∨ ∀ k, ¬x.store.inner.Waits m.id k) ∧
    ((∀ c ∈ changes, c.Unencumbered) →
      ∀ now, ∀ j ∈ x.roster.eligible now d, ∀ k, ¬x.store.inner.Waits j.id k) := by
  intro x
  have hx : Reachable x := reachable_run d₀ hw
  have hiff := Roster.eligible_unblocked_iff (r := x.roster) (d := d)
  simp only [Roster.isBlocked_eq_false_iff, hx.inStep.waits_iff] at hiff
  refine ⟨fun now j hj k hjk => ?_, hiff, fun hc => hiff.mpr fun m hm => .inr fun k hmk => ?_⟩
  · have hblocked : x.roster.isBlocked j.id = true :=
      Roster.isBlocked_iff_waits.mpr ⟨k, hx.inStep.waits_iff.mpr hjk⟩
    obtain ⟨hm, hrun, hdue⟩ := (Roster.waiting_eligible_iff hblocked).mp hj
    exact ⟨hm, by simp [Roster.eligible, hm, hrun, hdue]⟩
  · have hfree : x.store.inner.Unencumbered :=
      Tables.Unencumbered.run changes (by simp [Tables.Unencumbered, Index.fresh]) (.fresh d₀) hw hc
    obtain ⟨hmem, hq⟩ := List.mem_filter.mp (earliest?_mem hm)
    exact hfree m (hx.inStep.mem_iff.mp hmem) hq _ hmk.1 rfl

/-- A job, and a migration that waits on it or does not. -/
def plainJob : Job := { id := ⟨"plain"⟩, factory := "http", created := 1 }

def migration : Job :=
  { plainJob with id := ⟨"migration"⟩, queue := some migrationQueue, created := 2 }

/-- The migration comes alone, and the other job waits on it. -/
def freeMigration : List Change :=
  [.insert [Submission.waitingOn { job := plainJob } migration.id, { job := migration }]]

/-- The migration waits on the other job. -/
def heldMigration : List Change :=
  [.insert [{ job := plainJob }, Submission.waitingOn { job := migration } plainJob.id]]

theorem eligible_freeMigration :
    (∀ c ∈ freeMigration, c.WellFormed) ∧ (∀ c ∈ freeMigration, c.Unencumbered) ∧
      ((Index.fresh .pipelined).run freeMigration).roster.eligible 100 .pipelined = [migration] ∧
      ∀ now, ∀ j ∈ ((Index.fresh .pipelined).run freeMigration).roster.eligible now .pipelined,
        ∀ k, ¬((Index.fresh .pipelined).run freeMigration).store.inner.Waits j.id k := by
  have hw : ∀ c ∈ freeMigration, c.WellFormed := by decide
  have hc : ∀ c ∈ freeMigration, c.Unencumbered := by
    simp [freeMigration, Change.Unencumbered, Submission.waitingOn, Job.isMigration, plainJob,
      migrationQueue]
  exact ⟨hw, hc, by cbv, (eligible_waits_on_nobody_iff .pipelined .pipelined hw).2.2 hc⟩

/-- It is handed out in front of the job that it waits on. -/
theorem heldMigration_handed_out :
    ¬∀ (d₀ d : Discipline) (changes : List Change) (now : Int64), (∀ c ∈ changes, c.WellFormed) →
      ∀ j ∈ ((Index.fresh d₀).run changes).roster.eligible now d,
        ∀ k, ¬((Index.fresh d₀).run changes).store.inner.Waits j.id k := by
  intro h
  have hel : ((Index.fresh .runToCompletion).run heldMigration).roster.eligible 100 .runToCompletion
      = [migration] := by cbv
  have hinner : ((Index.fresh .runToCompletion).run heldMigration).store.inner
      = { jobs := [plainJob, migration], edges := [⟨migration.id, plainJob.id⟩] } := by cbv
  refine h .runToCompletion .runToCompletion heldMigration 100 (by decide) migration ?_
    plainJob.id ?_
  · rw [hel]
    exact List.mem_singleton.mpr rfl
  · rw [hinner]
    exact ⟨List.mem_singleton.mpr rfl, by decide, by decide⟩

end Backlog
