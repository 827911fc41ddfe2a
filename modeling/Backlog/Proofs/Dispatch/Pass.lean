/-
# What one look for work hands out

A look for work asks once what may be handed out and then goes through the answer, while each mark
that it sets changes the very roster from which the answer came.  It passes over jobs whose
preconditions do not hold, and stops where no worker is free.

* `markedAmong`, `Index.marked`: some jobs marked as running, and nothing else changed;
  `Index.setRunning_marked`: that is what the writes of a look come to, one after the other;
* `Discipline.head?_marked`, `Roster.mem_eligible_marked`: **marking others takes nothing away from
  a job that may be handed out.**  Where running heads keep their place nobody's place changes;
  where they do not, a queue only loses members in front of whom that job stood already;
* `Dispatch.busyWith`: a dispatcher that has handed some jobs out, and
  `Dispatch.handOut_busyWith`: what is left to be handed out on the way;
* `Dispatch.picked`, `Dispatch.pass_exact`: a look hands out the first jobs of those it may hand
  out, as many as there are workers free, and does nothing else.
-/
import Backlog.Proofs.Dispatch.InFlight

namespace Backlog

/-! ## 1. Marks -/

/-- The record of a job once those with these ids are marked as running. -/
def markedAmong (ids : List JobId) (j : Job) : Job :=
  if j.id ∈ ids then { j with running := true } else j

section

variable {ids : List JobId} {j : Job}

theorem markedAmong_of_mem (h : j.id ∈ ids) : markedAmong ids j = { j with running := true } :=
  if_pos h

theorem markedAmong_of_notMem (h : j.id ∉ ids) : markedAmong ids j = j := if_neg h

@[simp] theorem id_markedAmong : (markedAmong ids j).id = j.id := by
  unfold markedAmong; split <;> rfl

@[simp] theorem queue_markedAmong : (markedAmong ids j).queue = j.queue := by
  unfold markedAmong; split <;> rfl

@[simp] theorem created_markedAmong : (markedAmong ids j).created = j.created := by
  unfold markedAmong; split <;> rfl

theorem markedAmong_append (ids more : List JobId) (j : Job) :
    markedAmong more (markedAmong ids j) = markedAmong (ids ++ more) j := by
  unfold markedAmong
  by_cases hids : j.id ∈ ids <;> by_cases hmore : j.id ∈ more <;> simp [hids, hmore]

theorem map_markedAmong_nil (jobs : List Job) : jobs.map (markedAmong []) = jobs :=
  (List.map_congr_left fun _ _ => markedAmong_of_notMem List.not_mem_nil).trans jobs.map_id

end

/-- The roster with some jobs marked as running. -/
def Roster.marked (r : Roster) (ids : List JobId) : Roster :=
  { r with jobs := r.jobs.map (markedAmong ids) }

/-- The tables with some jobs marked as running. -/
def Tables.marked (t : Tables) (ids : List JobId) : Tables :=
  { t with jobs := t.jobs.map (markedAmong ids) }

theorem Matched.marked {r : Roster} {t : Tables} (h : Matched r t) (ids : List JobId) :
    Matched (r.marked ids) (t.marked ids) :=
  h.mapJobs fun _ => id_markedAmong

namespace Index

variable {x : MemoryIndex}

/-- The index with some jobs marked as running, in memory and in the store. -/
def marked (x : MemoryIndex) (ids : List JobId) : MemoryIndex :=
  x.holding (x.store.inner.marked ids) (x.roster.marked ids)

theorem marked_nil (x : MemoryIndex) : x.marked [] = x := by
  simp only [marked, Tables.marked, Roster.marked, map_markedAmong_nil]
  rfl

/-- One more mark. -/
theorem setRunning_marked (hm : Matched x.roster x.store.inner) (hon : x.store.refusing = false)
    (ids : List JobId) {id : JobId} (hid : Held x.roster.jobs id) :
    (x.marked ids).setRunning id true = .ok (x.marked (ids ++ [id])) := by
  have hmarked : Matched (x.marked ids).roster (x.marked ids).store.inner := hm.marked ids
  have hheld : Held (x.marked ids).roster.jobs id := (held_map fun _ => id_markedAmong).mpr hid
  have hadd : ∀ jobs : List Job, ((jobs.map (markedAmong ids)).map Job.id).Nodup →
      modifyFirst (·.id == id) (fun j => { j with running := true }) (jobs.map (markedAmong ids))
        = jobs.map (markedAmong (ids ++ [id])) := by
    intro jobs hu
    rw [modifyFirst_id_eq_map hu, List.map_map]
    refine List.map_congr_left fun j _ => ?_
    rw [← markedAmong_append, Function.comp_apply, markedAmong.eq_def [id]]
    simp only [List.mem_singleton]
  obtain ⟨hknown, hstored⟩ := hmarked.contains hheld
  refine setRunning_eq_ok_iff.mpr ⟨hknown, hon, hstored, ?_⟩
  have hroster := hadd x.roster.jobs hmarked.roster_unique
  have htables := hadd x.store.inner.jobs hmarked.unique
  simp only [marked, Roster.marked, Tables.marked, holding] at hroster htables ⊢
  rw [hroster, htables]

/-- The marks of a look, set one after the other. -/
theorem run_setRunning (hm : Matched x.roster x.store.inner) (hon : x.store.refusing = false) :
    ∀ (more ids : List JobId), (∀ id ∈ more, Held x.roster.jobs id) →
      (x.marked ids).run (more.map fun id => .setRunning id true) = x.marked (ids ++ more)
  | [], ids, _ => by rw [List.append_nil]; rfl
  | id :: rest, ids, hheld => by
    have hone : (x.marked ids).after (.setRunning id true) = x.marked (ids ++ [id]) := by
      have hset := setRunning_marked hm hon ids (hheld id List.mem_cons_self)
      simp only [after, perform, hset]
    have hrest := run_setRunning hm hon rest (ids ++ [id])
      fun i hi => hheld i (List.mem_cons_of_mem _ hi)
    rw [List.append_assoc, List.singleton_append] at hrest
    rw [List.map_cons, run, List.foldl_cons, hone]
    exact hrest

end Index

/-! ## 2. What marks take away -/

/-- A head that is not marked stays the head. -/
theorem Discipline.head?_marked {d : Discipline} {q : String} {jobs : List Job} {h : Job}
    {ids : List JobId} (hh : d.head? q jobs = some h) (hid : h.id ∉ ids) :
    d.head? q (jobs.map (markedAmong ids)) = some h := by
  cases d with
  | runToCompletion =>
    have hmap := head?_map (f := markedAmong ids) (fun _ => queue_markedAmong)
      (fun _ => created_markedAmong) hh
    rwa [markedAmong_of_notMem hid] at hmap
  | pipelined =>
    -- those that are marked drop out of the queue, and the others are as they were
    have hmembers : pipelined.members q (jobs.map (markedAmong ids))
        = (pipelined.members q jobs).filter fun j => !ids.contains j.id := by
      simp only [members, counts, List.filter_map, List.filter_filter]
      have hsame : ∀ j ∈ jobs.filter fun j =>
          !ids.contains j.id && (j.queue == some q && !j.running), markedAmong ids j = j := by
        intro j hj
        refine markedAmong_of_notMem ?_
        simpa using And.left (by simpa using (List.mem_filter.mp hj).2)
      rw [← (List.map_congr_left hsame).trans (List.map_id _)]
      refine congrArg _ (List.filter_congr fun j _ => ?_)
      by_cases hj : j.id ∈ ids
      · simp [markedAmong_of_mem hj, hj]
      · simp [markedAmong_of_notMem hj, hj]
    rw [head?, hmembers]
    exact earliest?_filter hh (by simpa using hid)

/-- Marking others takes nothing away from a job that may be handed out. -/
theorem Roster.mem_eligible_marked {r : Roster} (hu : (r.jobs.map Job.id).Nodup) {now : Int64}
    {d : Discipline} {ids : List JobId} {j : Job} (hj : j ∈ r.eligible now d) (hid : j.id ∉ ids) :
    j ∈ (r.marked ids).eligible now d := by
  have hstored : j ∈ (r.marked ids).jobs :=
    List.mem_map.mpr ⟨j, (mem_eligible_iff.mp hj).1, markedAmong_of_notMem hid⟩
  refine mem_eligible_of_eligible hu hj hstored (fun e q hhead => ?_) (fun hnone k hk => ?_)
    fun hfree => ?_
  · exact Discipline.head?_marked hhead hid
  · obtain ⟨old, hold, rfl⟩ := List.mem_map.mp hk
    rw [queue_markedAmong]
    exact hnone old hold
  · simpa [isBlocked, marked] using hfree

/-! ## 3. One look -/

/-- Whether every precondition of a job is known and holds. -/
def Index.permits {σ : Type} (x : Index σ) (c : Conditions) (j : Job) : Bool :=
  (x.roster.guards.rowsOf j.id).all fun g => c.holds g.name

theorem Index.permits_eq_isEmpty {σ : Type} (x : Index σ) (c : Conditions) (j : Job) :
    x.permits c j = (c.unmet (x.roster.guards.rowsOf j.id)).isEmpty := by
  rw [Bool.eq_iff_iff, List.isEmpty_iff, Conditions.unmet_eq_nil_iff, permits, List.all_eq_true]

namespace Dispatch

variable {d : Dispatch (Switched Tables)}

/-- The dispatcher once these jobs have been handed out, in this order: each is marked as running
and holds a ticket, and that is all. -/
def busyWith (d : Dispatch (Switched Tables)) (jobs : List Job) : Dispatch (Switched Tables) :=
  { desk := { d.desk with index := d.desk.index.marked (jobs.map Job.id) }
    inFlight := d.inFlight ++
      (jobs.zipIdx d.issued).map fun p => ⟨p.2, { p.1 with running := true }⟩
    issued := d.issued + jobs.length }

theorem busyWith_nil (d : Dispatch (Switched Tables)) : d.busyWith [] = d := by
  simp [busyWith, Index.marked_nil]

theorem length_inFlight_busyWith (jobs : List Job) :
    (d.busyWith jobs).inFlight.length = d.inFlight.length + jobs.length := by
  simp [busyWith]

theorem issue_busyWith (jobs : List Job) (j : Job) :
    (d.busyWith jobs).issue (d.desk.index.marked (jobs.map Job.id ++ [j.id])) j
      = d.busyWith (jobs ++ [j]) := by
  simp [busyWith, issue, List.zipIdx_append, Nat.add_assoc]

/-- What is left of a look when some jobs have been handed out already. -/
theorem handOut_busyWith (hm : Matched d.desk.index.roster d.desk.index.store.inner)
    (hon : d.desk.index.store.refusing = false) (workers : Nat) (c : Conditions) :
    ∀ (jobs out : List Job), (∀ j ∈ jobs, j ∈ d.desk.index.roster.jobs) →
      (d.busyWith out).handOut workers c jobs = d.busyWith (out ++
        (jobs.filter (d.desk.index.permits c)).take (workers - (d.inFlight.length + out.length)))
  | [], out, _ => by simp [handOut]
  | j :: rest, out, hjobs => by
    have hrest : ∀ k ∈ rest, k ∈ d.desk.index.roster.jobs :=
      fun k hk => hjobs k (List.mem_cons_of_mem _ hk)
    have hpermits : (c.unmet ((d.busyWith out).desk.index.roster.guards.rowsOf j.id)).isEmpty
        = d.desk.index.permits c j := (d.desk.index.permits_eq_isEmpty c j).symm
    rw [handOut, hpermits, length_inFlight_busyWith]
    cases hp : d.desk.index.permits c j with
    | false =>
      rw [List.filter_cons_of_neg (by simp [hp])]
      exact handOut_busyWith hm hon workers c rest out hrest
    | true =>
      rw [List.filter_cons_of_pos hp]
      by_cases hfull : workers ≤ d.inFlight.length + out.length
      · simp [hfull]
      · have hheld : Held d.desk.index.roster.jobs j.id :=
          List.mem_map.mpr ⟨j, hjobs j List.mem_cons_self, rfl⟩
        have hset : (d.busyWith out).desk.index.setRunning j.id true
            = .ok (d.desk.index.marked (out.map Job.id ++ [j.id])) :=
          Index.setRunning_marked hm hon _ hheld
        obtain ⟨free, hfree⟩ : ∃ free, workers - (d.inFlight.length + out.length) = free + 1 :=
          ⟨workers - (d.inFlight.length + out.length) - 1, by omega⟩
        have hnext : workers - (d.inFlight.length + (out ++ [j]).length) = free := by
          rw [List.length_append, List.length_singleton]
          omega
        have ih := handOut_busyWith hm hon workers c rest (out ++ [j]) hrest
        rw [hnext, List.append_assoc, List.singleton_append] at ih
        simp only [Bool.not_true, Bool.false_eq_true, if_false, hfull, hset, issue_busyWith, hfree,
          List.take_succ_cons]
        exact ih

/-- What a look for work hands out: the first of those that may be handed out and whose
preconditions all hold, as many as there are workers free. -/
def picked (d : Dispatch (Switched Tables)) (workers : Nat) (now : Int64) (c : Conditions) :
    List Job :=
  ((d.desk.index.eligible now).filter (d.desk.index.permits c)).take (workers - d.inFlight.length)

theorem picked_sublist (d : Dispatch (Switched Tables)) (workers : Nat) (now : Int64)
    (c : Conditions) : (d.picked workers now c).Sublist (d.desk.index.eligible now) :=
  (List.take_sublist _ _).trans List.filter_sublist

theorem mem_jobs_of_mem_picked {workers : Nat} {now : Int64} {c : Conditions} {j : Job}
    (hj : j ∈ d.picked workers now c) : j ∈ d.desk.index.roster.jobs :=
  (Roster.mem_eligible_iff.mp ((d.picked_sublist workers now c).subset hj)).1

/-- What is picked may still be handed out when its turn comes, after the marks that were set
before. -/
theorem mem_eligible_of_picked (hm : Matched d.desk.index.roster d.desk.index.store.inner)
    {workers : Nat} {now : Int64} {c : Conditions} {before after : List Job} {j : Job}
    (hsplit : d.picked workers now c = before ++ j :: after) :
    j ∈ (d.desk.index.marked (before.map Job.id)).eligible now := by
  have hsub := d.picked_sublist workers now c
  have hu : ((d.picked workers now c).map Job.id).Nodup :=
    (Roster.nodup_ids_eligible hm.roster_unique now _).sublist (hsub.map _)
  rw [hsplit, List.map_append, List.map_cons] at hu
  have hid : j.id ∉ before.map Job.id :=
    fun hmem => (List.nodup_append.mp hu).2.2 _ hmem _ List.mem_cons_self rfl
  exact Roster.mem_eligible_marked hm.roster_unique (hsub.subset (hsplit ▸ by simp)) hid

/-- **One look for work hands out exactly the right jobs.**  They are the first of those that may be
handed out and whose preconditions all hold, in that order, as many as there are workers free.  Each
of them may still be handed out when its turn comes, after the marks that were set before; and each
is in flight as it is stored by then.  Nothing else changes. -/
theorem pass_exact (hm : Matched d.desk.index.roster d.desk.index.store.inner)
    (hon : d.desk.index.store.refusing = false) (workers : Nat) (now : Int64) (c : Conditions) :
    d.pass workers now c = d.busyWith (d.picked workers now c) ∧
    (∀ before j after, d.picked workers now c = before ++ j :: after →
      d.desk.index.run (before.map fun k => .setRunning k.id true)
          = d.desk.index.marked (before.map Job.id) ∧
        j ∈ (d.desk.index.marked (before.map Job.id)).eligible now) ∧
    ∀ j ∈ d.picked workers now c,
      { j with running := true } ∈ (d.pass workers now c).desk.index.roster.jobs ∧
        { j with running := true } ∈ (d.pass workers now c).desk.index.store.inner.jobs := by
  have hpass : d.pass workers now c = d.busyWith (d.picked workers now c) := by
    have hall := handOut_busyWith hm hon workers c (d.desk.index.eligible now) []
      fun j hj => (Roster.mem_eligible_iff.mp hj).1
    rw [busyWith_nil, List.nil_append, List.length_nil, Nat.add_zero] at hall
    exact hall
  refine ⟨hpass, fun before j after hsplit => ⟨?_, mem_eligible_of_picked hm hsplit⟩,
    fun j hj => ?_⟩
  · have hheld : ∀ id ∈ before.map Job.id, Held d.desk.index.roster.jobs id := by
      intro id hid
      obtain ⟨k, hk, rfl⟩ := List.mem_map.mp hid
      have hpicked : k ∈ d.picked workers now c := hsplit ▸ List.mem_append_left _ hk
      exact List.mem_map.mpr ⟨k, mem_jobs_of_mem_picked hpicked, rfl⟩
    have hrun := Index.run_setRunning hm hon (before.map Job.id) [] hheld
    rwa [Index.marked_nil, List.map_map, List.nil_append] at hrun
  · have hmem := mem_jobs_of_mem_picked hj
    have hmarked : markedAmong ((d.picked workers now c).map Job.id) j
        = { j with running := true } := markedAmong_of_mem (List.mem_map.mpr ⟨j, hj, rfl⟩)
    rw [hpass, ← hmarked]
    exact ⟨List.mem_map.mpr ⟨j, hmem, rfl⟩, List.mem_map.mpr ⟨j, hm.mem_iff.mp hmem, rfl⟩⟩

/-- Two jobs of a queue, one that waits for a disk, and two that stand for themselves.  The job at
the head of the queue is out with a worker. -/
def crowded : Dispatch (Switched Tables) :=
  let job (name : String) (created : Int64) : Job := { id := ⟨name⟩, factory := "http", created }
  let index := (Index.fresh .pipelined).run
    [.insert [{ job := { job "first" 1 with queue := some "Q" } },
      { job := { job "second" 2 with queue := some "Q" } },
      Submission.guardedBy { job := job "scan" 3 } "disk",
      Submission.guardedBy { job := job "send" 4 } "net", { job := job "last" 5 }],
      .setRunning ⟨"first"⟩ true]
  { desk := { index }, inFlight := [⟨0, { job "first" 1 with queue := some "Q", running := true }⟩]
    issued := 1 }

/-- With three workers, `second` and `send` are handed out; `scan` is passed over, and `last` finds
no worker free. -/
theorem pass_exact_crowded :
    Matched crowded.desk.index.roster crowded.desk.index.store.inner ∧
      crowded.desk.index.store.refusing = false ∧
      (crowded.desk.index.eligible 9).map Job.id
        = [⟨"second"⟩, ⟨"scan"⟩, ⟨"send"⟩, ⟨"last"⟩] ∧
      (crowded.picked 3 9 ⟨[("net", true)]⟩).map Job.id = [⟨"second"⟩, ⟨"send"⟩] ∧
      crowded.pass 3 9 ⟨[("net", true)]⟩
        = crowded.busyWith (crowded.picked 3 9 ⟨[("net", true)]⟩) := by
  have hm : Matched crowded.desk.index.roster crowded.desk.index.store.inner :=
    matched_run .pipelined _
  have hon : crowded.desk.index.store.refusing = false := by cbv
  exact ⟨hm, hon, by cbv, by cbv, (pass_exact hm hon 3 9 ⟨[("net", true)]⟩).1⟩

end Dispatch

end Backlog
