/-
# Stores that keep three tables

What a write does if it succeeds, and when it is refused, are two questions.  `Tabular` answers the
first one for every store alike: behind it are three tables, and a write that succeeds does to them
what the same write does to tables in memory.  It leaves the second one open, so whatever is proved
of a tabular store holds no matter which writes are refused.

* `Tabular`: such a store; tables in memory are one (`instTabularTables`), and a switch in front of
  a store makes another one (`instTabularSwitched`);
* `Index.onTables`: an index on such a store, seen as one on tables in memory;
* `Index.insert_onTables` and its siblings: a change that goes through goes through there as well,
  so what is known of changes there is known of changes here;
* `Dropped`, `Recorded`: what is left of an index when jobs are deleted, or when one job is given
  another record.
-/
import Backlog.Proofs.Mirror

namespace Backlog

/-! ## 1. Stores -/

/-- A store whose writes do to three tables what writes to tables in memory do, if they succeed. -/
class Tabular (σ : Type) [Storage σ] where
  tables : σ → Tables
  load_ok {s : σ} {snapshot : Snapshot} :
    Storage.load s = .ok snapshot → snapshot = (tables s).snapshot
  insert_ok {batch : List Submission} {s s' : σ} :
    Storage.insert batch s = .ok s' → (tables s).insert batch = .ok (tables s')
  setRunning_ok {id : JobId} {running : Bool} {s s' : σ} :
    Storage.setRunning id running s = .ok s' → (tables s).setRunning id running = .ok (tables s')
  reschedule_ok {id : JobId} {running : Bool} {attempt : Int32} {due : Int64}
    {payload : ByteArray} {s s' : σ} :
    Storage.reschedule id running attempt due payload s = .ok s' →
      (tables s).reschedule id running attempt due payload = .ok (tables s')
  clearRunning_ok {s s' : σ} :
    Storage.clearRunning s = .ok s' → tables s' = (tables s).clearRunning
  amend_ok {jobs : List Job} {s s' : σ} :
    Storage.amend jobs s = .ok s' → tables s' = (tables s).amend jobs
  delete_ok {ids : List JobId} {s s' : σ} :
    Storage.delete ids s = .ok s' → tables s' = (tables s).delete ids

open Tabular (tables)

instance instTabularTables : Tabular Tables where
  tables := id
  load_ok h := (Except.ok.inj h).symm
  insert_ok h := h
  setRunning_ok h := h
  reschedule_ok h := h
  clearRunning_ok h := (Except.ok.inj h).symm
  amend_ok h := (Except.ok.inj h).symm
  delete_ok h := (Except.ok.inj h).symm

/-- What the write behind the switch does, if the switch lets it through. -/
theorem Switched.guarded_ok {σ : Type} {write : WriteCall} {act : σ → Except StoreError σ}
    {P : σ → σ → Prop} (hact : ∀ {s s' : σ}, act s = .ok s' → P s s') {s s' : Switched σ}
    (h : s.guarded write act = .ok s') : P s.inner s'.inner := by
  obtain ⟨-, t, ht, rfl⟩ := guarded_eq_ok_iff.mp h
  exact hact ht

instance instTabularSwitched {σ : Type} [Storage σ] [Tabular σ] : Tabular (Switched σ) where
  tables s := tables s.inner
  load_ok h := Tabular.load_ok (σ := σ) h
  insert_ok h := Switched.guarded_ok Tabular.insert_ok h
  setRunning_ok h := Switched.guarded_ok Tabular.setRunning_ok h
  reschedule_ok h := Switched.guarded_ok Tabular.reschedule_ok h
  clearRunning_ok h := Switched.guarded_ok Tabular.clearRunning_ok h
  amend_ok h := Switched.guarded_ok Tabular.amend_ok h
  delete_ok h := Switched.guarded_ok Tabular.delete_ok h

/-! ## 2. Indexes -/

variable {σ : Type} [Storage σ] [Tabular σ]

namespace Index

variable {x y : Index σ}

/-- The tables behind an index. -/
def stored (x : Index σ) : Tables := tables x.store

/-- The index as it would be on tables in memory. -/
def onTables (x : Index σ) : MemoryIndex :=
  { store := { inner := x.stored }, roster := x.roster, discipline := x.discipline }

@[simp] theorem inner_onTables : x.onTables.store.inner = x.stored := rfl

@[simp] theorem roster_onTables : x.onTables.roster = x.roster := rfl

theorem eq_of_onTables {t : Tables} {r : Roster} (h : y.onTables = x.onTables.holding t r) :
    y.roster = r ∧ y.stored = t :=
  ⟨congrArg Index.roster h, congrArg (fun z : MemoryIndex => z.store.inner) h⟩

theorem writeThrough_onTables {write : σ → Except StoreError σ} {call : WriteCall}
    {act : Tables → Except StoreError Tables} {follow : Roster → Roster}
    (hact : ∀ {s s' : σ}, write s = .ok s' → act (tables s) = .ok (tables s'))
    (h : x.writeThrough write follow = .ok y) :
    x.onTables.writeThrough (fun s => s.guarded call act) follow = .ok y.onTables := by
  refine (writeThrough_eq_ok_iff call act follow).mpr ⟨rfl, ?_⟩
  unfold Index.writeThrough at h
  cases hs : write x.store with
  | error e => simp [hs] at h
  | ok s =>
    simp only [hs, Except.ok.injEq] at h
    subst h
    exact ⟨tables s, hact hs, rfl⟩

theorem insert_onTables {batch : List Submission} (h : x.insert batch = .ok y) :
    x.onTables.insert batch = .ok y.onTables := by
  unfold Index.insert at h ⊢
  rw [roster_onTables]
  cases hc : x.roster.cycle? batch with
  | some id => simp [hc] at h
  | none =>
    rw [hc] at h
    exact writeThrough_onTables Tabular.insert_ok h

theorem jobs_of_insert {batch : List Submission} (h : x.insert batch = .ok y) :
    y.roster.jobs = x.roster.jobs ++ batch.map Submission.job := by
  obtain ⟨-, -, -, hy⟩ := insert_eq_ok_iff.mp (insert_onTables h)
  rw [(eq_of_onTables hy).1, Roster.jobs_insert]
  rfl

theorem held_of_insert {batch : List Submission} (h : x.insert batch = .ok y) {id : JobId} :
    Held y.roster.jobs id ↔ Held x.roster.jobs id ∨ id ∈ batch.map Submission.id := by
  rw [jobs_of_insert h, held_append_batch]

theorem setRunning_onTables {id : JobId} {running : Bool} (h : x.setRunning id running = .ok y) :
    x.onTables.setRunning id running = .ok y.onTables := by
  unfold Index.setRunning at h ⊢
  rw [roster_onTables]
  cases hg : x.roster.get? id with
  | none => simp [hg] at h
  | some j =>
    rw [hg] at h
    exact writeThrough_onTables Tabular.setRunning_ok h

theorem reschedule_onTables {id : JobId} {running : Bool} {attempt : Int32} {due : Int64}
    {payload : ByteArray} (h : x.reschedule id running attempt due payload = .ok y) :
    x.onTables.reschedule id running attempt due payload = .ok y.onTables := by
  unfold Index.reschedule at h ⊢
  rw [roster_onTables]
  cases hg : x.roster.get? id with
  | none => simp [hg] at h
  | some j =>
    rw [hg] at h
    exact writeThrough_onTables Tabular.reschedule_ok h

theorem clearRunning_onTables (h : x.clearRunning = .ok y) :
    x.onTables.clearRunning = .ok y.onTables :=
  writeThrough_onTables (fun hs => congrArg Except.ok (Tabular.clearRunning_ok hs).symm) h

theorem amend_onTables {jobs : List Job} (h : x.amend jobs = .ok y) :
    x.onTables.amend jobs = .ok y.onTables := by
  unfold Index.amend at h ⊢
  exact writeThrough_onTables (fun hs => congrArg Except.ok (Tabular.amend_ok hs).symm) h

theorem delete_onTables {ids : List JobId} (h : x.delete ids = .ok y) :
    x.onTables.delete ids = .ok y.onTables :=
  writeThrough_onTables (fun hs => congrArg Except.ok (Tabular.delete_ok hs).symm) h

omit [Tabular σ] in
theorem store_of_open {s : σ} {d : Discipline} (h : Index.open s d = .ok y) : y.store = s := by
  unfold Index.open at h
  cases hl : Storage.load s with
  | error e => simp [hl] at h
  | ok snapshot =>
    simp only [hl, Except.ok.injEq] at h
    rw [← h]

/-- An index that is opened on a store with distinct ids has the jobs of the store. -/
theorem matched_of_open {s : σ} {d : Discipline} (hu : ((tables s).jobs.map Job.id).Nodup)
    (h : Index.open s d = .ok y) : Matched y.roster y.stored := by
  unfold Index.open at h
  cases hl : Storage.load s with
  | error e => simp [hl] at h
  | ok snapshot =>
    simp only [hl, Except.ok.injEq] at h
    subst h
    rw [Tabular.load_ok hl]
    exact ⟨hu, oldestFirst_perm _⟩

end Index

/-! ## 3. What is left of an index -/

/-- A record in place of those that share its id changes no id. -/
theorem Job.id_ite (again k : Job) : (if k.id = again.id then again else k).id = k.id := by
  by_cases hid : k.id = again.id
  · rw [if_pos hid, hid]
  · rw [if_neg hid]

/-- `y` is `x` without these jobs and whatever hangs off them. -/
structure Dropped (x y : Index σ) (ids : List JobId) : Prop where
  index : y.onTables = x.onTables.holding (x.stored.delete ids) (x.roster.remove ids)
  gone : ∀ id ∈ ids, ¬Held y.roster.jobs id ∧ ¬Held y.stored.jobs id

/-- `y` is `x` with another record of one job. -/
structure Recorded (x y : Index σ) (again : Job) : Prop where
  index : y.onTables = x.onTables.holding
    { x.stored with jobs := x.stored.jobs.map fun k => if k.id = again.id then again else k }
    { x.roster with jobs := x.roster.jobs.map fun k => if k.id = again.id then again else k }
  kept : again ∈ y.roster.jobs ∧ again ∈ y.stored.jobs

section

variable {x y : Index σ}

theorem Dropped.mem_iff {ids : List JobId} (h : Dropped x y ids) {k : Job} :
    k ∈ y.roster.jobs ↔ k ∈ x.roster.jobs ∧ k.id ∉ ids := by
  rw [(Index.eq_of_onTables h.index).1]
  simp [Roster.remove]

theorem Dropped.mem {ids : List JobId} (h : Dropped x y ids) {k : Job} (hk : k ∈ x.roster.jobs)
    (hid : k.id ∉ ids) : k ∈ y.roster.jobs := h.mem_iff.mpr ⟨hk, hid⟩

theorem Recorded.mem {again : Job} (h : Recorded x y again) {k : Job} (hk : k ∈ x.roster.jobs)
    (hid : k.id ≠ again.id) : k ∈ y.roster.jobs := by
  rw [(Index.eq_of_onTables h.index).1]
  exact List.mem_map.mpr ⟨k, hk, if_neg hid⟩

theorem Recorded.mem_iff {again : Job} (h : Recorded x y again) {k : Job} :
    k ∈ y.roster.jobs ↔ k = again ∨ k ∈ x.roster.jobs ∧ k.id ≠ again.id := by
  constructor
  · intro hk
    rw [(Index.eq_of_onTables h.index).1] at hk
    obtain ⟨k₀, hk₀, rfl⟩ := List.mem_map.mp hk
    by_cases hid : k₀.id = again.id
    · exact .inl (if_pos hid)
    · rw [if_neg hid]
      exact .inr ⟨hk₀, hid⟩
  · rintro (rfl | ⟨hk, hid⟩)
    · exact h.kept.1
    · exact h.mem hk hid

theorem Dropped.held_iff {ids : List JobId} (h : Dropped x y ids) {id : JobId} :
    Held y.roster.jobs id ↔ Held x.roster.jobs id ∧ id ∉ ids := by
  rw [(Index.eq_of_onTables h.index).1]
  exact held_filter

theorem Recorded.held_iff {again : Job} (h : Recorded x y again) {id : JobId} :
    Held y.roster.jobs id ↔ Held x.roster.jobs id := by
  rw [(Index.eq_of_onTables h.index).1]
  exact held_map again.id_ite

theorem Dropped.matched {ids : List JobId} (h : Dropped x y ids) (hm : Matched x.roster x.stored) :
    Matched y.roster y.stored := by
  obtain ⟨hroster, hstored⟩ := Index.eq_of_onTables h.index
  rw [hroster, hstored]
  exact hm.delete ids

theorem Recorded.matched {again : Job} (h : Recorded x y again)
    (hm : Matched x.roster x.stored) : Matched y.roster y.stored := by
  obtain ⟨hroster, hstored⟩ := Index.eq_of_onTables h.index
  rw [hroster, hstored]
  exact hm.mapJobs again.id_ite

theorem Dropped.inStep {ids : List JobId} (h : Dropped x y ids) (hs : InStep x.roster x.stored) :
    InStep y.roster y.stored := by
  obtain ⟨hroster, hstored⟩ := Index.eq_of_onTables h.index
  rw [hroster, hstored]
  exact hs.delete ids

theorem Recorded.inStep {again : Job} (h : Recorded x y again)
    (hs : InStep x.roster x.stored) : InStep y.roster y.stored := by
  obtain ⟨hroster, hstored⟩ := Index.eq_of_onTables h.index
  rw [hroster, hstored]
  exact hs.mapJobs again.id_ite

/-- A change of one record, whatever it is. -/
theorem Recorded.of_modify (hm : Matched x.roster x.stored) {j : Job} (hj : j ∈ x.roster.jobs)
    {f : Job → Job} (hf : (f j).id = j.id)
    (hy : y.onTables = x.onTables.holding
      { x.stored with jobs := modifyFirst (·.id == j.id) f x.stored.jobs }
      { x.roster with jobs := modifyFirst (·.id == j.id) f x.roster.jobs }) :
    Recorded x y (f j) := by
  have hmap : ∀ jobs : List Job, jobs.Perm x.stored.jobs →
      modifyFirst (·.id == j.id) f jobs = jobs.map fun k => if k.id = (f j).id then f j else k := by
    intro jobs hp
    have hu : (jobs.map Job.id).Nodup := (hp.map Job.id).nodup_iff.mpr hm.unique
    rw [modifyFirst_id_eq_map hu, hf]
    refine List.map_congr_left fun k hk => ?_
    by_cases hid : k.id = j.id
    · have hkj : k = j :=
        List.inj_on_of_nodup_map hu hk (hp.mem_iff.mpr (hm.mem_iff.mp hj)) hid
      rw [hkj]
    · rw [if_neg hid, if_neg hid]
  rw [hmap _ (.refl _), hmap _ hm.perm] at hy
  obtain ⟨hroster, hstored⟩ := Index.eq_of_onTables hy
  refine ⟨hy, ?_, ?_⟩
  · rw [hroster]
    exact List.mem_map.mpr ⟨j, hj, if_pos hf.symm⟩
  · rw [hstored]
    exact List.mem_map.mpr ⟨j, hm.mem_iff.mp hj, if_pos hf.symm⟩

namespace Index

theorem delete_dropped {ids : List JobId} (h : x.delete ids = .ok y) : Dropped x y ids := by
  obtain ⟨-, hy⟩ := delete_eq_ok_iff.mp (delete_onTables h)
  refine ⟨hy, fun id hid => ?_⟩
  obtain ⟨hroster, hstored⟩ := eq_of_onTables hy
  rw [hroster, hstored]
  exact ⟨fun hheld => (held_filter.mp hheld).2 hid, fun hheld => (held_filter.mp hheld).2 hid⟩

theorem setRunning_recorded (hm : Matched x.roster x.stored) {j : Job} (hj : j ∈ x.roster.jobs)
    {running : Bool} (h : x.setRunning j.id running = .ok y) :
    Recorded x y { j with running } := by
  obtain ⟨-, -, -, hy⟩ := setRunning_eq_ok_iff.mp (setRunning_onTables h)
  exact .of_modify (f := fun j => { j with running }) hm hj rfl hy

theorem reschedule_recorded (hm : Matched x.roster x.stored) {j : Job} (hj : j ∈ x.roster.jobs)
    {running : Bool} {attempt : Int32} {due : Int64} {payload : ByteArray}
    (h : x.reschedule j.id running attempt due payload = .ok y) :
    Recorded x y { j with running, attempt, due, payload } := by
  obtain ⟨-, -, -, hy⟩ := reschedule_eq_ok_iff.mp (reschedule_onTables h)
  exact .of_modify (f := fun j => j.rescheduled running attempt due payload) hm hj rfl hy

theorem held_of_reschedule {id : JobId} {running : Bool} {attempt : Int32} {due : Int64}
    {payload : ByteArray} (h : x.reschedule id running attempt due payload = .ok y) :
    Held x.roster.jobs id :=
  Roster.contains_iff.mp (reschedule_eq_ok_iff.mp (reschedule_onTables h)).1

end Index

end

/-! ## 4. Errors -/

theorem Index.writeThrough_error {σ : Type} {x : Index σ} {write : σ → Except StoreError σ}
    {follow : Roster → Roster} {cause : IndexError}
    (h : x.writeThrough write follow = .error cause) : ∃ e, cause = .store e := by
  unfold Index.writeThrough at h
  cases hs : write x.store with
  | ok s => simp [hs] at h
  | error e =>
    simp only [hs, Except.error.injEq] at h
    exact ⟨e, h.symm⟩

/-- A retry of a job that is there can only fail because of the store. -/
theorem Index.reschedule_error {σ : Type} [Storage σ] {x : Index σ} {j : Job}
    (hj : x.roster.get? j.id = some j) {running : Bool} {attempt : Int32} {due : Int64}
    {payload : ByteArray} {cause : IndexError}
    (h : x.reschedule j.id running attempt due payload = .error cause) :
    ∃ e, cause = .store e := by
  unfold Index.reschedule at h
  rw [hj] at h
  exact Index.writeThrough_error h

end Backlog
