/-
# Deletion only releases

Deleting jobs takes their rows along, and every edge that names one of them.  So it can only make
room.  A queue loses members, but a head that stays is still its head; a job loses some of those it
waits for and gains none; and if the migration queue was empty, it still is.

* `Cleared`: what is left of a roster, job by job and row by row (`Roster.remove_cleared`);
* `Roster.waits_remove_iff`: who still waits for whom, and from that who is set free
  (`Roster.isBlocked_remove_eq_false_iff`);
* `Roster.mem_eligible_remove`, `Roster.eligible_remove`: whatever could be handed out and stays can
  still be handed out, in the order in which it could before;
* `Roster.remove_append`: deleting two lists of ids is deleting the one and then the other.  Both
  leave the same entries, for an entry that the first deletion empties is dropped by then and would
  be dropped by both at once;
* `remove_only_releases`: **all of this**, for every roster in which no id occurs twice and every
  row is filed under the job that it names.
-/
import Backlog.Proofs.Order
import Backlog.Proofs.Queue.Waiting

namespace Backlog

/-! ## 1. What is left -/

/-- Every row is filed under the job that it names. -/
structure Roster.WellFiled (r : Roster) : Prop where
  guards : ∀ id, ∀ g ∈ r.guards.rowsOf id, g.job = id
  edges : ∀ id, ∀ e ∈ r.edges.rowsOf id, e.job = id

/-- `s` is `r` without these jobs and whatever hangs off them, and with everything else as it was,
in the same order. -/
structure Cleared (r : Roster) (ids : List JobId) (s : Roster) : Prop where
  jobs : s.jobs = r.jobs.filter fun j => !ids.contains j.id
  guards_kept : ∀ id, id ∉ ids → s.guards.rowsOf id = r.guards.rowsOf id
  edges_kept : ∀ id, id ∉ ids →
    s.edges.rowsOf id = (r.edges.rowsOf id).filter fun e => !ids.contains e.waitsOn
  job_gone : ∀ j ∈ s.jobs, j.id ∉ ids
  rows_gone : ∀ id ∈ ids, s.guards.rowsOf id = [] ∧ s.edges.rowsOf id = []
  /-- No row anywhere names a deleted job. -/
  guard_gone : ∀ g ∈ s.guards.all, g.job ∉ ids
  edge_gone : ∀ e ∈ s.edges.all, e.job ∉ ids ∧ e.waitsOn ∉ ids

namespace Roster

variable {r : Roster}

theorem mem_jobs_remove {ids : List JobId} {j : Job} :
    j ∈ (r.remove ids).jobs ↔ j ∈ r.jobs ∧ j.id ∉ ids := by
  simp [remove]

theorem rowsOf_guards_remove (ids : List JobId) (id : JobId) :
    (r.remove ids).guards.rowsOf id = if id ∈ ids then [] else r.guards.rowsOf id :=
  r.guards.rowsOf_dropAll ids id

theorem rowsOf_edges_remove (ids : List JobId) (id : JobId) :
    (r.remove ids).edges.rowsOf id =
      if id ∈ ids then [] else (r.edges.rowsOf id).filter fun e => !ids.contains e.waitsOn := by
  rw [remove, Filed.rowsOf_keep, Filed.rowsOf_dropAll]
  split <;> rfl

theorem remove_cleared (hw : r.WellFiled) (ids : List JobId) : Cleared r ids (r.remove ids) where
  jobs := rfl
  guards_kept id hid := by rw [rowsOf_guards_remove, if_neg hid]
  edges_kept id hid := by rw [rowsOf_edges_remove, if_neg hid]
  job_gone j hj := (mem_jobs_remove.mp hj).2
  rows_gone id hid := by
    rw [rowsOf_guards_remove, rowsOf_edges_remove, if_pos hid, if_pos hid]
    exact ⟨rfl, rfl⟩
  guard_gone g hg := by
    obtain ⟨id, hrow⟩ := Filed.mem_all.mp hg
    rw [rowsOf_guards_remove] at hrow
    split at hrow
    · simp at hrow
    · rename_i hid
      rwa [hw.guards id g hrow]
  edge_gone e he := by
    obtain ⟨id, hrow⟩ := Filed.mem_all.mp he
    rw [rowsOf_edges_remove] at hrow
    split at hrow
    · simp at hrow
    · rename_i hid
      obtain ⟨hrow, hout⟩ := List.mem_filter.mp hrow
      rw [hw.edges id e hrow]
      exact ⟨hid, by simpa using hout⟩

/-! ## 2. Who still waits -/

/-- Whoever stays waits for those it waited for, as far as they stay. -/
theorem waits_remove_iff {ids : List JobId} {a b : JobId} (ha : a ∉ ids) :
    (r.remove ids).Waits a b ↔ r.Waits a b ∧ b ∉ ids := by
  have hheld : Held (r.remove ids).jobs b ↔ Held r.jobs b ∧ b ∉ ids := held_filter
  simp only [Waits, hheld, rowsOf_edges_remove, if_neg ha, List.mem_filter, Bool.not_eq_true',
    List.contains_eq_mem, decide_eq_false_iff_not]
  constructor
  · rintro ⟨⟨hb, hid⟩, e, ⟨he, -⟩, rfl⟩
    exact ⟨⟨hb, e, he, rfl⟩, hid⟩
  · rintro ⟨⟨hb, e, he, rfl⟩, hid⟩
    exact ⟨⟨hb, hid⟩, e, ⟨he, hid⟩, rfl⟩

theorem isBlocked_remove_iff {ids : List JobId} {id : JobId} (hid : id ∉ ids) :
    (r.remove ids).isBlocked id = true ↔ ∃ b, r.Waits id b ∧ b ∉ ids := by
  simp only [isBlocked_iff_waits, waits_remove_iff hid]

/-- A job that stays is set free exactly if all the jobs that it waited for are deleted. -/
theorem isBlocked_remove_eq_false_iff {ids : List JobId} {id : JobId} (hid : id ∉ ids) :
    (r.remove ids).isBlocked id = false ↔ ∀ b, r.Waits id b → b ∈ ids := by
  rw [Bool.eq_false_iff, ne_eq, isBlocked_remove_iff hid]
  simp

/-! ## 3. What may still be handed out -/

/-- Whatever may be handed out and stays may still be handed out. -/
theorem mem_eligible_remove (hu : (r.jobs.map Job.id).Nodup) {now : Int64} {d : Discipline}
    {ids : List JobId} {j : Job} (hj : j ∈ r.eligible now d) (hid : j.id ∉ ids) :
    j ∈ (r.remove ids).eligible now d := by
  have hstored : j ∈ (r.remove ids).jobs :=
    mem_jobs_remove.mpr ⟨(mem_eligible_iff.mp hj).1, hid⟩
  refine mem_eligible_of_eligible hu hj hstored (fun e q hhead => ?_) (fun hnone k hk => ?_)
    fun hfree => ?_
  · exact Discipline.head?_filter hhead (by simpa using hid)
  · exact hnone k (mem_jobs_remove.mp hk).1
  · rw [isBlocked_remove_eq_false_iff hid]
    rw [isBlocked_eq_false_iff] at hfree
    exact fun b hb => absurd hb (hfree b)

/-- Those that could be handed out before the deletion are, in the same order, what could be handed
out before and was not deleted. -/
theorem eligible_remove (hu : (r.jobs.map Job.id).Nodup) (now : Int64) (d : Discipline)
    (ids : List JobId) :
    ((r.remove ids).eligible now d).filter (r.eligible now d).contains =
      (r.eligible now d).filter fun j => !ids.contains j.id := by
  have hu' : ((r.remove ids).jobs.map Job.id).Nodup := hu.sublist (List.filter_sublist.map _)
  rw [eligible_eq_oldestFirst hu' now d, filter_oldestFirst, List.filter_filter]
  conv_rhs => rw [eligible_eq_oldestFirst hu now d, filter_oldestFirst]
  simp only [remove, List.filter_filter]
  refine congrArg _ (List.filter_congr fun j _ => ?_)
  rw [Bool.eq_iff_iff]
  simp only [Bool.and_eq_true, List.contains_iff_mem]
  constructor
  · rintro ⟨⟨hbefore, -⟩, hstays⟩
    exact ⟨hstays, hbefore⟩
  · rintro ⟨hstays, hbefore⟩
    exact ⟨⟨hbefore, mem_eligible_remove hu hbefore (by simpa using hstays)⟩, hstays⟩

/-! ## 4. One deletion after another -/

/-- Deleting two lists of ids is deleting the one and then the other. -/
theorem remove_append (r : Roster) (ids more : List JobId) :
    r.remove (ids ++ more) = (r.remove ids).remove more := by
  have hin : ∀ id, (!(ids ++ more).contains id) = (!ids.contains id && !more.contains id) := by
    simp
  simp only [remove, Roster.mk.injEq]
  refine ⟨?_, r.guards.dropAll_append ids more, ?_⟩
  · rw [List.filter_filter]
    exact List.filter_congr fun j _ => by rw [hin, Bool.and_comm]
  · rw [Filed.dropAll_keep, Filed.keep_keep, Filed.dropAll_append]
    simp only [hin]

/-- Only the ids that are deleted matter, and neither their order nor how often they are named. -/
theorem remove_congr (r : Roster) {ids ids' : List JobId} (h : ∀ id, id ∈ ids ↔ id ∈ ids') :
    r.remove ids = r.remove ids' := by
  have hin : ∀ id, ids.contains id = ids'.contains id := by
    intro id
    rw [Bool.eq_iff_iff, List.contains_iff_mem, List.contains_iff_mem, h]
  simp only [remove, Filed.dropAll, hin]

end Roster

/-- Rows that are in step with stored ones are filed under the jobs that they name. -/
theorem InStep.wellFiled {r : Roster} {t : Tables} (h : InStep r t) : r.WellFiled where
  guards id g hg := by
    rw [h.same_guards id] at hg
    simpa using (List.mem_filter.mp hg).2
  edges id e he := by
    rw [h.same_edges id] at he
    simpa using (List.mem_filter.mp he).2

/-- **Deletion only releases.**  Nothing is left of the deleted jobs and all else is as it was;
whatever could be handed out and stays can still be handed out, in the same order, at all times and
under either discipline; a job that stays is set free exactly if it was blocked and all that it
waited for is deleted; and deletions can be put together and taken apart, in either order. -/
theorem remove_only_releases {r : Roster} (hu : (r.jobs.map Job.id).Nodup) (hw : r.WellFiled)
    (ids : List JobId) :
    Cleared r ids (r.remove ids) ∧
    (∀ now d, ((r.eligible now d).filter fun j => !ids.contains j.id).Sublist
      ((r.remove ids).eligible now d)) ∧
    (∀ j ∈ (r.remove ids).jobs,
      r.isBlocked j.id = true ∧ (r.remove ids).isBlocked j.id = false ↔
        r.isBlocked j.id = true ∧ ∀ b, r.Waits j.id b → b ∈ ids) ∧
    ∀ more, r.remove (ids ++ more) = (r.remove ids).remove more ∧
      r.remove (ids ++ more) = (r.remove more).remove ids := by
  refine ⟨Roster.remove_cleared hw ids, fun now d => ?_, fun j hj => ?_, fun more => ⟨?_, ?_⟩⟩
  · rw [← Roster.eligible_remove hu now d ids]
    exact List.filter_sublist
  · have hid : j.id ∉ ids := (Roster.mem_jobs_remove.mp hj).2
    rw [Roster.isBlocked_remove_eq_false_iff hid]
  · exact r.remove_append ids more
  · rw [← r.remove_append more ids]
    exact r.remove_congr fun id => by simp [or_comm]

/-- `parse` stands behind `fetch` in a queue, and waits for it.  `report` waits for it too, and for
`scan` besides. -/
def releasing : MemoryIndex :=
  let job (name : String) (created : Int64) : Job := { id := ⟨name⟩, factory := "http", created }
  (Index.fresh .runToCompletion).run
    [.insert [{ job := { job "fetch" 1 with queue := some "Q" } },
      Submission.waitingOn { job := { job "parse" 2 with queue := some "Q" } } ⟨"fetch"⟩,
      Submission.waitingOn (Submission.waitingOn { job := job "report" 3 } ⟨"fetch"⟩) ⟨"scan"⟩,
      Submission.guardedBy { job := job "scan" 4 } "disk"]]

/-- What is deleted: a job that is stored, twice, and one that is not. -/
def releasedIds : List JobId := [⟨"fetch"⟩, ⟨"absent"⟩, ⟨"fetch"⟩]

/-- Deleting `fetch` frees `parse`, and leaves `scan` where it was and `report` to wait for it. -/
theorem remove_only_releases_fetch :
    (releasing.roster.jobs.map Job.id).Nodup ∧ releasing.roster.WellFiled ∧
      (releasing.roster.eligible 9 .pipelined).map Job.id = [⟨"fetch"⟩, ⟨"scan"⟩] ∧
      ((releasing.roster.remove releasedIds).eligible 9 .pipelined).map Job.id
        = [⟨"parse"⟩, ⟨"scan"⟩] ∧
      Cleared releasing.roster releasedIds (releasing.roster.remove releasedIds) ∧
      ((releasing.roster.eligible 9 .pipelined).filter fun j => !releasedIds.contains j.id).Sublist
        ((releasing.roster.remove releasedIds).eligible 9 .pipelined) := by
  have hs : InStep releasing.roster releasing.store.inner :=
    (reachable_run .runToCompletion (by decide)).inStep
  obtain ⟨hcleared, heligible, -, -⟩ :=
    remove_only_releases hs.roster_unique hs.wellFiled releasedIds
  exact ⟨hs.roster_unique, hs.wellFiled, by cbv, by cbv, hcleared, heligible 9 .pipelined⟩

end Backlog
