/-
# The roster mirrors the tables over every run

The roster and the tables hold the same facts in different shapes: the tables keep three flat
lists, the roster keeps its rows filed under ids.  Each of the six writes is carried out once in
either shape, and a restart builds the roster anew.  `InStep` says that the two agree, and this
module proves that they agree after every run (`inStep_run`).

* `InStep`: no id twice, the same record under each id, the same rows under each id in the same
  order, and no row of a job that is not there;
* `InStep.of_matched`: that follows from `Matched` and what the rows must satisfy;
* `InStep.mapJobs`, `InStep.replace`, `InStep.insert`, `InStep.delete`, `InStep.reopen`: what each
  kind of change does;
* `InStep.perform`: the step lemma, one case a change, and `Reachable.inStep`, the run lemma.

A refused write needs no case of its own: it changes neither side.
-/
import Backlog.Proofs.Filed
import Backlog.Proofs.Matched

namespace Backlog

/-! ## 1. Agreement -/

/-- The roster and the tables say the same. -/
structure InStep (r : Roster) (t : Tables) : Prop where
  roster_unique : (r.jobs.map Job.id).Nodup
  tables_unique : (t.jobs.map Job.id).Nodup
  /-- Both hold the same record under each id, or both hold none. -/
  same_job : ∀ id, r.get? id = t.jobs.find? (·.id == id)
  /-- The guards filed under an id are those that name it, in the order of the table. -/
  same_guards : ∀ id, r.guards.rowsOf id = t.guards.filter (·.job == id)
  same_edges : ∀ id, r.edges.rowsOf id = t.edges.filter (·.job == id)
  /-- No row belongs to a job that is not stored, in the tables or in the roster. -/
  guard_owned : ∀ g ∈ t.guards, Held t.jobs g.job
  edge_owned : ∀ e ∈ t.edges, Held t.jobs e.job
  filed_guard_owned : ∀ g ∈ r.guards.all, Held r.jobs g.job
  filed_edge_owned : ∀ e ∈ r.edges.all, Held r.jobs e.job

namespace InStep

variable {r : Roster} {t : Tables}

/-- It is enough that both hold the same jobs, and that rows are filed where they belong. -/
theorem of_matched (hm : Matched r t)
    (hg : ∀ id, r.guards.rowsOf id = t.guards.filter (·.job == id))
    (he : ∀ id, r.edges.rowsOf id = t.edges.filter (·.job == id))
    (og : ∀ g ∈ t.guards, Held t.jobs g.job) (oe : ∀ e ∈ t.edges, Held t.jobs e.job) :
    InStep r t := by
  refine ⟨hm.roster_unique, hm.unique, find?_id_of_perm hm.perm hm.unique, hg, he, og, oe, ?_, ?_⟩
  · intro g hmem
    obtain ⟨id, hrow⟩ := Filed.mem_all.mp hmem
    rw [hg id] at hrow
    exact hm.held_iff.mpr (og g (List.mem_of_mem_filter hrow))
  · intro e hmem
    obtain ⟨id, hrow⟩ := Filed.mem_all.mp hmem
    rw [he id] at hrow
    exact hm.held_iff.mpr (oe e (List.mem_of_mem_filter hrow))

/-- The roster has the jobs of the tables, in an order of its own. -/
theorem perm (h : InStep r t) : r.jobs.Perm t.jobs := by
  refine (List.perm_ext_iff_of_nodup (.of_map _ h.roster_unique) (.of_map _ h.tables_unique)).mpr ?_
  intro j
  have hr : r.jobs.find? (·.id == j.id) = some j ↔ j ∈ r.jobs ∧ j.id = j.id :=
    find?_id_eq_some_iff h.roster_unique
  have ht : t.jobs.find? (·.id == j.id) = some j ↔ j ∈ t.jobs ∧ j.id = j.id :=
    find?_id_eq_some_iff h.tables_unique
  have hsame : r.jobs.find? (·.id == j.id) = t.jobs.find? (·.id == j.id) := h.same_job j.id
  rw [hsame, ht] at hr
  simpa using hr.symm

theorem mem_iff (h : InStep r t) {j : Job} : j ∈ r.jobs ↔ j ∈ t.jobs := h.perm.mem_iff

theorem matched (h : InStep r t) : Matched r t := ⟨h.tables_unique, h.perm⟩

theorem empty : InStep {} {} := by
  refine of_matched .empty ?_ ?_ (by simp) (by simp) <;> simp

/-! ## 2. Changes of records -/

/-- A change of records that keeps ids can be made on both sides. -/
theorem mapJobs (h : InStep r t) {f : Job → Job} (hf : ∀ j, (f j).id = j.id) :
    InStep { r with jobs := r.jobs.map f } { t with jobs := t.jobs.map f } := by
  refine of_matched (h.matched.mapJobs hf) h.same_guards h.same_edges ?_ ?_
  · exact fun g hg => (held_map hf).mpr (h.guard_owned g hg)
  · exact fun e he => (held_map hf).mpr (h.edge_owned e he)

theorem modifyFirst (h : InStep r t) {id : JobId} {f : Job → Job}
    (hf : ∀ j, j.id = id → (f j).id = j.id) :
    InStep { r with jobs := modifyFirst (·.id == id) f r.jobs }
      { t with jobs := modifyFirst (·.id == id) f t.jobs } := by
  obtain ⟨hr, ht⟩ := h.matched.modifyFirst_eq_mapJobs id f
  rw [hr, ht]
  refine h.mapJobs fun j => ?_
  by_cases hj : j.id = id
  · rw [if_pos hj, hf j hj]
  · rw [if_neg hj]

theorem replace (h : InStep r t) (j : Job) : InStep (r.replace j) (t.replace j) :=
  h.modifyFirst fun _ hk => hk.symm

theorem amend : ∀ (jobs : List Job) {r : Roster} {t : Tables}, InStep r t →
    InStep (jobs.foldl Roster.replace r) (t.amend jobs)
  | [], _, _, h => h
  | j :: rest, _, _, h => amend rest (h.replace j)

end InStep

/-! ## 3. Batches -/

/-- Rows that all belong to one job are found under its id, and under no other. -/
theorem filter_owner {α : Type} {key : α → JobId} {owner : JobId} {rows : List α}
    (h : ∀ a ∈ rows, key a = owner) (id : JobId) :
    rows.filter (key · == id) = if id = owner then rows else [] := by
  by_cases hid : id = owner
  · rw [if_pos hid]
    exact List.filter_eq_self.mpr fun a ha => by simp [h a ha, hid]
  · rw [if_neg hid]
    refine List.filter_eq_nil_iff.mpr fun a ha => ?_
    simpa [h a ha] using fun heq => hid heq.symm

/-- Rows that arrive with the jobs they belong to are found under those jobs. -/
theorem Filed.rowsOf_foldl_file_owned {α : Type} {key : α → JobId} {rows : Submission → List α}
    (batch : List Submission) (f : Filed α) (h : ∀ s ∈ batch, ∀ a ∈ rows s, key a = s.id)
    (id : JobId) :
    (batch.foldl (fun f s => f.file s.id (rows s)) f).rowsOf id
      = f.rowsOf id ++ (batch.flatMap rows).filter (key · == id) := by
  rw [rowsOf_foldl_file_batch, List.filter_flatMap]
  congr 1
  exact List.flatMap_congr fun s hs => (filter_owner (h s hs) id).symm

namespace InStep

variable {r : Roster} {t : Tables}

/-- A batch that brings no id twice, and none that is stored, can be added to both sides. -/
theorem insert (h : InStep r t) {batch : List Submission} (hw : ∀ s ∈ batch, s.WellFormed)
    (hd : firstDuplicate (t.jobs.map Job.id) batch = none) :
    InStep (r.insert batch) (t.append batch) := by
  refine of_matched (h.matched.insert hd) ?_ ?_ ?_ ?_
  · intro id
    rw [Roster.insert_eq, Filed.rowsOf_foldl_file_owned batch _ fun s hs => (hw s hs).1,
      h.same_guards, Tables.append, List.filter_append]
  · intro id
    rw [Roster.insert_eq, Filed.rowsOf_foldl_file_owned batch _ fun s hs => (hw s hs).2,
      h.same_edges, Tables.append, List.filter_append]
  · intro g hg
    rcases List.mem_append.mp hg with hg | hg
    · exact held_append_left (h.guard_owned g hg)
    · obtain ⟨s, hs, hgs⟩ := List.mem_flatMap.mp hg
      rw [(hw s hs).1 g hgs]
      exact held_of_batch hs
  · intro e he
    rcases List.mem_append.mp he with he | he
    · exact held_append_left (h.edge_owned e he)
    · obtain ⟨s, hs, hes⟩ := List.mem_flatMap.mp he
      rw [(hw s hs).2 e hes]
      exact held_of_batch hs

/-! ## 4. Deletion -/

theorem filter_dropped {α : Type} (key : α → JobId) (ids : List JobId) (id : JobId)
    (rows : List α) :
    (rows.filter fun a => !ids.contains (key a)).filter (key · == id)
      = if id ∈ ids then [] else rows.filter (key · == id) := by
  rw [List.filter_filter]
  by_cases hid : id ∈ ids
  · rw [if_pos hid]
    refine List.filter_eq_nil_iff.mpr fun a _ => ?_
    simp only [Bool.and_eq_true, beq_iff_eq, Bool.not_eq_true', List.contains_eq_mem,
      decide_eq_false_iff_not, not_and, not_not]
    rintro rfl
    exact hid
  · rw [if_neg hid]
    refine List.filter_congr fun a _ => ?_
    by_cases ha : key a = id
    · simp [ha, hid]
    · simp [ha]

theorem delete (h : InStep r t) (ids : List JobId) : InStep (r.remove ids) (t.delete ids) := by
  refine of_matched (h.matched.delete ids) ?_ ?_ ?_ ?_
  · intro id
    rw [Roster.remove, Filed.rowsOf_dropAll, h.same_guards, Tables.delete, filter_dropped]
  · intro id
    have hsplit : (t.delete ids).edges = (t.edges.filter fun e => !ids.contains e.job).filter
        fun e => !ids.contains e.waitsOn := by
      rw [Tables.delete, List.filter_filter]
      exact List.filter_congr fun e _ => Bool.and_comm _ _
    rw [hsplit, List.filter_comm, filter_dropped, Roster.remove, Filed.rowsOf_keep,
      Filed.rowsOf_dropAll, h.same_edges]
  · intro g hg
    obtain ⟨hg, hid⟩ := List.mem_filter.mp hg
    exact held_filter.mpr ⟨h.guard_owned g hg, by simpa using hid⟩
  · intro e he
    obtain ⟨he, hid⟩ := List.mem_filter.mp he
    refine held_filter.mpr ⟨h.edge_owned e he, ?_⟩
    simp only [Bool.and_eq_true, Bool.not_eq_true', List.contains_eq_mem,
      decide_eq_false_iff_not] at hid
    exact hid.1

/-! ## 5. Restarts, and the run -/

/-- A roster that is read afresh is in step, whatever the one before it was. -/
theorem reopen (h : InStep r t) : InStep (.ofSnapshot t.snapshot) t :=
  of_matched h.matched.reopen (fun id => Filed.rowsOf_byKey _ _ id)
    (fun id => Filed.rowsOf_byKey _ _ id) h.guard_owned h.edge_owned

theorem perform {x y : MemoryIndex} (h : InStep x.roster x.store.inner) {c : Change}
    (hc : c.WellFormed) (hxy : x.perform c = .ok y) : InStep y.roster y.store.inner := by
  cases c with
  | insert batch =>
    obtain ⟨-, -, hd, rfl⟩ := Index.insert_eq_ok_iff.mp hxy
    exact h.insert hc hd
  | setRunning id running =>
    obtain ⟨-, -, -, rfl⟩ := Index.setRunning_eq_ok_iff.mp hxy
    exact h.modifyFirst fun _ _ => rfl
  | reschedule id running attempt due payload =>
    obtain ⟨-, -, -, rfl⟩ := Index.reschedule_eq_ok_iff.mp hxy
    exact h.modifyFirst fun _ _ => rfl
  | clearRunning =>
    obtain ⟨-, rfl⟩ := Index.clearRunning_eq_ok_iff.mp hxy
    exact h.mapJobs fun _ => rfl
  | amend jobs =>
    obtain ⟨-, rfl⟩ := Index.amend_eq_ok_iff.mp hxy
    exact InStep.amend _ h
  | delete ids =>
    obtain ⟨-, rfl⟩ := Index.delete_eq_ok_iff.mp hxy
    exact h.delete ids
  | reopen d =>
    obtain rfl := Index.open_eq_ok_iff.mp hxy
    exact h.reopen
  | refuse refusing =>
    obtain rfl := Except.ok.inj hxy
    exact h

end InStep

theorem Reachable.inStep {x : MemoryIndex} (h : Reachable x) : InStep x.roster x.store.inner := by
  induction h with
  | fresh d => exact InStep.empty
  | step _ hc hxy ih => exact ih.perform hc hxy

/-- **Roster and tables agree after every run.**  The run may bring any changes in any order,
restarts and refused writes among them; only batches must be well-formed. -/
theorem inStep_run (d : Discipline) (changes : List Change) (h : ∀ c ∈ changes, c.WellFormed) :
    InStep ((Index.fresh d).run changes).roster ((Index.fresh d).run changes).store.inner :=
  (reachable_run d h).inStep

/-- Two jobs of which the first waits on the second come and go; in between come a deletion that is
refused, a restart under the other discipline, and an amendment. -/
def mixedRun : List Change :=
  let fetch : Job := { id := ⟨"fetch"⟩, factory := "http", queue := some "Q", created := 1 }
  let keep : Job := { id := ⟨"keep"⟩, factory := "disk", created := 2 }
  [.insert [Submission.waitingOn { job := fetch } keep.id,
      Submission.guardedBy { job := keep } "disk"],
    .setRunning keep.id true, .refuse true, .delete [keep.id], .refuse false, .reopen .pipelined,
    .amend [{ fetch with payload := "x".toUTF8 }], .delete [keep.id]]

theorem inStep_mixedRun :
    (∀ c ∈ mixedRun, c.WellFormed) ∧ InStep ((Index.fresh .runToCompletion).run mixedRun).roster
      ((Index.fresh .runToCompletion).run mixedRun).store.inner :=
  have h : ∀ c ∈ mixedRun, c.WellFormed := by decide
  ⟨h, inStep_run .runToCompletion mixedRun h⟩

end Backlog
