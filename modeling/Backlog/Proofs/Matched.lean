/-
# Roster and tables hold the same jobs over every run

The roster and the tables keep their jobs in orders of their own, and each change of a job is made
once on either side.  That both hold the same jobs needs no condition on the batches that come in:
a row may be filed under the wrong job, but a job brings its own id.

* `Held`: a job with some id is in a list;
* `Matched`: no id twice, and the same jobs on both sides;
* `Matched.mapJobs`, `Matched.modifyFirst`, `Matched.insert`, `Matched.delete`,
  `Matched.reopen`: what each kind of change does;
* `Matched.perform`: the step lemma, one case a change, and `matched_run`, the run lemma.
-/
import Backlog.Proofs.Run
import Mathlib.Data.List.Nodup

namespace Backlog

/-! ## 1. The same jobs -/

/-- A job with this id is among `jobs`. -/
def Held (jobs : List Job) (id : JobId) : Prop := id ∈ jobs.map Job.id

instance (jobs : List Job) (id : JobId) : Decidable (Held jobs id) :=
  inferInstanceAs (Decidable (id ∈ jobs.map Job.id))

theorem held_map {f : Job → Job} (hf : ∀ j, (f j).id = j.id) {jobs : List Job} {id : JobId} :
    Held (jobs.map f) id ↔ Held jobs id := by
  rw [Held, map_id_of_keeps hf, Held]

theorem held_append_left {jobs more : List Job} {id : JobId} (h : Held jobs id) :
    Held (jobs ++ more) id := by
  rw [Held, List.map_append]
  exact List.mem_append_left _ h

/-- The ids that a batch brings are those of its jobs. -/
theorem map_id_batch (batch : List Submission) :
    (batch.map Submission.job).map Job.id = batch.map Submission.id := by
  rw [List.map_map]
  rfl

theorem held_append_batch {jobs : List Job} {batch : List Submission} {id : JobId} :
    Held (jobs ++ batch.map Submission.job) id ↔ Held jobs id ∨ id ∈ batch.map Submission.id := by
  rw [Held, List.map_append, map_id_batch, List.mem_append, Held]

theorem held_of_batch {jobs : List Job} {batch : List Submission} {s : Submission}
    (hs : s ∈ batch) : Held (jobs ++ batch.map Submission.job) s.id :=
  held_append_batch.mpr (.inr (List.mem_map_of_mem hs))

theorem held_filter {jobs : List Job} {ids : List JobId} {id : JobId} :
    Held (jobs.filter fun j => !ids.contains j.id) id ↔ Held jobs id ∧ id ∉ ids := by
  simp only [Held, List.mem_map, List.mem_filter, Bool.not_eq_true', List.contains_eq_mem,
    decide_eq_false_iff_not]
  constructor
  · rintro ⟨j, ⟨hj, hid⟩, rfl⟩
    exact ⟨⟨j, hj, rfl⟩, hid⟩
  · rintro ⟨⟨j, hj, rfl⟩, hid⟩
    exact ⟨j, ⟨hj, hid⟩, rfl⟩

theorem Roster.contains_iff {r : Roster} {id : JobId} : r.contains id = true ↔ Held r.jobs id := by
  rw [contains, get?, List.find?_isSome, Held, List.mem_map]
  simp only [beq_iff_eq]

theorem Tables.contains_iff {t : Tables} {id : JobId} : t.contains id = true ↔ Held t.jobs id := by
  rw [contains, List.any_eq_true, Held, List.mem_map]
  simp only [beq_iff_eq]

/-- The roster and the tables hold the same jobs, in orders of their own. -/
structure Matched (r : Roster) (t : Tables) : Prop where
  unique : (t.jobs.map Job.id).Nodup
  perm : r.jobs.Perm t.jobs

namespace Matched

variable {r : Roster} {t : Tables}

theorem roster_unique (h : Matched r t) : (r.jobs.map Job.id).Nodup :=
  (h.perm.map Job.id).nodup_iff.mpr h.unique

theorem mem_iff (h : Matched r t) {j : Job} : j ∈ r.jobs ↔ j ∈ t.jobs := h.perm.mem_iff

theorem held_iff (h : Matched r t) {id : JobId} : Held r.jobs id ↔ Held t.jobs id :=
  (h.perm.map Job.id).mem_iff

/-- What is held is known on both sides. -/
theorem contains (h : Matched r t) {id : JobId} (hheld : Held r.jobs id) :
    r.contains id = true ∧ t.contains id = true :=
  ⟨Roster.contains_iff.mpr hheld, Tables.contains_iff.mpr (h.held_iff.mp hheld)⟩

theorem get?_eq_some_iff (h : Matched r t) {id : JobId} {j : Job} :
    r.get? id = some j ↔ j ∈ r.jobs ∧ j.id = id :=
  find?_id_eq_some_iff h.roster_unique

theorem empty : Matched {} {} := ⟨by simp, .refl _⟩

/-! ## 2. What each change does -/

/-- A change of records that keeps ids can be made on both sides. -/
theorem mapJobs (h : Matched r t) {f : Job → Job} (hf : ∀ j, (f j).id = j.id) :
    Matched { r with jobs := r.jobs.map f } { t with jobs := t.jobs.map f } where
  unique := by
    rw [map_id_of_keeps hf]
    exact h.unique
  perm := h.perm.map f

theorem modifyFirst_eq_mapJobs (h : Matched r t) (id : JobId) (f : Job → Job) :
    modifyFirst (·.id == id) f r.jobs = r.jobs.map (fun j => if j.id = id then f j else j) ∧
      modifyFirst (·.id == id) f t.jobs = t.jobs.map fun j => if j.id = id then f j else j :=
  ⟨modifyFirst_id_eq_map h.roster_unique, modifyFirst_id_eq_map h.unique⟩

theorem modifyFirst (h : Matched r t) {id : JobId} {f : Job → Job}
    (hf : ∀ j, j.id = id → (f j).id = j.id) :
    Matched { r with jobs := modifyFirst (·.id == id) f r.jobs }
      { t with jobs := modifyFirst (·.id == id) f t.jobs } := by
  obtain ⟨hr, ht⟩ := h.modifyFirst_eq_mapJobs id f
  rw [hr, ht]
  refine h.mapJobs fun j => ?_
  by_cases hj : j.id = id
  · rw [if_pos hj, hf j hj]
  · rw [if_neg hj]

theorem replace (h : Matched r t) (j : Job) : Matched (r.replace j) (t.replace j) :=
  h.modifyFirst fun _ hk => hk.symm

theorem amend : ∀ (jobs : List Job) {r : Roster} {t : Tables}, Matched r t →
    Matched (jobs.foldl Roster.replace r) (t.amend jobs)
  | [], _, _, h => h
  | j :: rest, _, _, h => amend rest (h.replace j)

end Matched

theorem Roster.insert_eq : ∀ (batch : List Submission) (r : Roster),
    r.insert batch =
      { jobs := r.jobs ++ batch.map Submission.job
        guards := batch.foldl (fun f s => f.file s.id s.guards) r.guards
        edges := batch.foldl (fun f s => f.file s.id s.edges) r.edges }
  | [], r => by simp [insert]
  | s :: rest, r => by
    have ih := insert_eq rest (r.enter s)
    simp only [insert, List.foldl_cons] at ih ⊢
    rw [ih]
    simp [enter]

theorem Roster.jobs_insert (r : Roster) (batch : List Submission) :
    (r.insert batch).jobs = r.jobs ++ batch.map Submission.job := by
  rw [insert_eq]

namespace Matched

variable {r : Roster} {t : Tables}

/-- A batch that brings no id twice, and none that is stored, can be added to both sides. -/
theorem insert (h : Matched r t) {batch : List Submission}
    (hd : firstDuplicate (t.jobs.map Job.id) batch = none) :
    Matched (r.insert batch) (t.append batch) := by
  obtain ⟨hnodup, hnew⟩ := firstDuplicate_eq_none_iff.mp hd
  refine ⟨?_, ?_⟩
  · simp only [Tables.append, List.map_append, map_id_batch]
    refine List.nodup_append.mpr ⟨h.unique, hnodup, ?_⟩
    rintro _ hold _ hmem rfl
    obtain ⟨s, hs, rfl⟩ := List.mem_map.mp hmem
    exact hnew s hs hold
  · rw [Roster.jobs_insert]
    exact h.perm.append_right _

theorem delete (h : Matched r t) (ids : List JobId) : Matched (r.remove ids) (t.delete ids) :=
  ⟨h.unique.sublist (List.filter_sublist.map _), h.perm.filter _⟩

/-- A roster that is read afresh has the jobs of the tables, whatever the one before it had. -/
theorem reopen (h : Matched r t) : Matched (.ofSnapshot t.snapshot) t :=
  ⟨h.unique, oldestFirst_perm t.jobs⟩

/-! ## 3. Runs -/

theorem perform {x y : MemoryIndex} (h : Matched x.roster x.store.inner) {c : Change}
    (hxy : x.perform c = .ok y) : Matched y.roster y.store.inner := by
  cases c with
  | insert batch =>
    obtain ⟨-, -, hd, rfl⟩ := Index.insert_eq_ok_iff.mp hxy
    exact h.insert hd
  | setRunning id running =>
    obtain ⟨-, -, -, rfl⟩ := Index.setRunning_eq_ok_iff.mp hxy
    exact h.modifyFirst fun _ _ => rfl
  | reschedule id running attempt due payload =>
    obtain ⟨-, -, -, rfl⟩ := Index.reschedule_eq_ok_iff.mp hxy
    exact h.modifyFirst fun _ _ => rfl
  | clearRunning =>
    obtain ⟨-, rfl⟩ := Index.clearRunning_eq_ok_iff.mp hxy
    exact h.mapJobs fun _ => rfl
  | amend jobs =>
    obtain ⟨-, rfl⟩ := Index.amend_eq_ok_iff.mp hxy
    exact Matched.amend _ h
  | delete ids =>
    obtain ⟨-, rfl⟩ := Index.delete_eq_ok_iff.mp hxy
    exact h.delete ids
  | reopen d =>
    obtain rfl := Index.open_eq_ok_iff.mp hxy
    exact h.reopen
  | refuse refusing =>
    obtain rfl := Except.ok.inj hxy
    exact h

theorem run (changes : List Change) {x : MemoryIndex} (h : Matched x.roster x.store.inner) :
    Matched (x.run changes).roster (x.run changes).store.inner :=
  Index.run_induction (P := fun x => Matched x.roster x.store.inner) (Q := fun _ => True)
    (fun h _ hy => h.perform hy) changes h fun _ _ => trivial

end Matched

/-- **Roster and tables hold the same jobs after every run**, whatever the batches. -/
theorem matched_run (d : Discipline) (changes : List Change) :
    Matched ((Index.fresh d).run changes).roster ((Index.fresh d).run changes).store.inner :=
  Matched.run changes Matched.empty

end Backlog
