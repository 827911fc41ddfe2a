/-
# Runs of an index over tables in memory

A `MemoryIndex` is an index whose store is a set of tables in memory behind a switch.  What a
caller can do to it is a `Change`: one of the six writes, a restart on the same store, or a turn
of the switch.  A change that is turned down leaves the index as it was.

* `Index.perform`, `Index.after`, `Index.run`: one change, what is left after it, and a whole run,
  which keeps whatever every change keeps (`run_induction`);
* `Reachable`: the states of runs whose batches are well-formed (`reachable_run`);
* `insert_eq_ok_iff` and its five siblings: exactly when a write goes through, and what it leaves.
  Everything that is later said about a write is derived from these, and no proof opens the
  operations again.
-/
import Backlog.Proofs.JobList
import Backlog.Index
import Backlog.Store.Switched

namespace Backlog

/-! ## 1. Changes and runs -/

/-- An index on tables in memory whose writes can be switched off. -/
abbrev MemoryIndex := Index (Switched Tables)

/-- What a caller can do to an index. -/
inductive Change
  | insert (batch : List Submission)
  | setRunning (id : JobId) (running : Bool)
  | reschedule (id : JobId) (running : Bool) (attempt : Int32) (due : Int64) (payload : ByteArray)
  | clearRunning
  | amend (jobs : List Job)
  | delete (ids : List JobId)
  /-- A new index on the same store. -/
  | reopen (discipline : Discipline)
  /-- Switches the writes of the store off, or on again. -/
  | refuse (refusing : Bool)

/-- Batches are well-formed.  Nothing is asked of any other change. -/
def Change.WellFormed : Change → Prop
  | insert batch => ∀ s ∈ batch, s.WellFormed
  | _ => True

instance : (c : Change) → Decidable c.WellFormed
  | .insert batch => inferInstanceAs (Decidable (∀ s ∈ batch, s.WellFormed))
  | .setRunning .. | .reschedule .. | .clearRunning | .amend _ | .delete _ | .reopen _
  | .refuse _ => .isTrue trivial

namespace Index

/-- An index on empty tables. -/
def fresh (d : Discipline) : MemoryIndex :=
  { store := { inner := {} }, roster := {}, discipline := d }

theorem open_empty (d : Discipline) :
    Index.open (σ := Switched Tables) { inner := {} } d = .ok (fresh d) := by
  have h : oldestFirst [] = [] := List.mergeSort_nil
  simp only [Index.open, Storage.load, Tables.snapshot, Roster.ofSnapshot, Filed.byKey, fresh, h]
  rfl

def perform (x : MemoryIndex) : Change → Except IndexError MemoryIndex
  | .insert batch => x.insert batch
  | .setRunning id running => x.setRunning id running
  | .reschedule id running attempt due payload => x.reschedule id running attempt due payload
  | .clearRunning => x.clearRunning
  | .amend jobs => x.amend jobs
  | .delete ids => x.delete ids
  | .reopen d => Index.open x.store d
  | .refuse refusing => .ok { x with store := x.store.refuse refusing }

/-- What is left after a change: the changed index, or the index as it was. -/
def after (x : MemoryIndex) (c : Change) : MemoryIndex :=
  match x.perform c with
  | .ok y => y
  | .error _ => x

theorem perform_eq_after {x : MemoryIndex} {c : Change} (h : (x.perform c).isOk = true) :
    x.perform c = .ok (x.after c) := by
  unfold Index.after
  cases hc : x.perform c with
  | ok y => rfl
  | error e => rw [hc] at h; exact absurd h (by simp [Except.isOk, Except.toBool])

def run (x : MemoryIndex) (changes : List Change) : MemoryIndex := changes.foldl after x

section Invariants

variable {P : MemoryIndex → Prop} {Q : Change → Prop}

theorem after_induction {x : MemoryIndex} {c : Change} (h : P x)
    (hstep : ∀ {y}, x.perform c = .ok y → P y) : P (x.after c) := by
  unfold Index.after
  split
  · rename_i y hy
    exact hstep hy
  · exact h

/-- What every change that goes through keeps, a run keeps. -/
theorem run_induction (hstep : ∀ {x y c}, P x → Q c → x.perform c = .ok y → P y) :
    ∀ (changes : List Change) {x : MemoryIndex}, P x → (∀ c ∈ changes, Q c) → P (x.run changes)
  | [], _, h, _ => h
  | c :: rest, x, h, hc => by
    have hafter : P (x.after c) := after_induction h fun hy => hstep h (hc c List.mem_cons_self) hy
    exact run_induction hstep rest hafter fun e he => hc e (List.mem_cons_of_mem _ he)

end Invariants

/-- The index with other tables and another roster; the switch and the discipline stay. -/
def holding (x : MemoryIndex) (t : Tables) (r : Roster) : MemoryIndex :=
  { x with store := { x.store with inner := t }, roster := r }

variable {x y : MemoryIndex} {t : Tables} {r : Roster}

@[simp] theorem inner_holding : (x.holding t r).store.inner = t := rfl

@[simp] theorem roster_holding : (x.holding t r).roster = r := rfl

end Index

/-- The states of runs that start on empty tables and bring well-formed batches. -/
inductive Reachable : MemoryIndex → Prop
  | fresh (d : Discipline) : Reachable (.fresh d)
  | step {x y : MemoryIndex} {c : Change} :
      Reachable x → c.WellFormed → x.perform c = .ok y → Reachable y

theorem Reachable.after {x : MemoryIndex} (h : Reachable x) {c : Change} (hc : c.WellFormed) :
    Reachable (x.after c) :=
  Index.after_induction h fun hy => h.step hc hy

theorem Reachable.run (changes : List Change) {x : MemoryIndex} (h : Reachable x)
    (hc : ∀ c ∈ changes, c.WellFormed) : Reachable (x.run changes) :=
  Index.run_induction Reachable.step changes h hc

theorem reachable_run (d : Discipline) {changes : List Change} (h : ∀ c ∈ changes, c.WellFormed) :
    Reachable ((Index.fresh d).run changes) :=
  Reachable.run changes (Reachable.fresh d) h

/-! ## 2. When a write goes through, and what it leaves -/

theorem Switched.guarded_eq_ok_iff {σ : Type} {s s' : Switched σ} {write : WriteCall}
    {act : σ → Except StoreError σ} :
    s.guarded write act = .ok s' ↔
      s.refusing = false ∧ ∃ t, act s.inner = .ok t ∧ s' = { s with inner := t } := by
  unfold Switched.guarded
  cases hr : s.refusing with
  | true => simp
  | false =>
    cases ha : act s.inner with
    | error e => simp [Except.map]
    | ok t => simp [Except.map, eq_comm]

namespace Index

variable {x y : MemoryIndex}

/-- A write of the tables goes through if the switch is on and the tables take it. -/
theorem writeThrough_eq_ok_iff (write : WriteCall) (act : Tables → Except StoreError Tables)
    (follow : Roster → Roster) :
    x.writeThrough (fun s => s.guarded write act) follow = .ok y ↔
      x.store.refusing = false ∧
        ∃ t, act x.store.inner = .ok t ∧ y = x.holding t (follow x.roster) := by
  simp only [Index.writeThrough]
  cases hg : x.store.guarded write act with
  | error e =>
    simp only [reduceCtorEq, false_iff]
    rintro ⟨hr, t, ht, -⟩
    rw [Switched.guarded_eq_ok_iff.mpr ⟨hr, t, ht, rfl⟩] at hg
    exact absurd hg (by simp)
  | ok s =>
    obtain ⟨hr, t, ht, rfl⟩ := Switched.guarded_eq_ok_iff.mp hg
    constructor
    · intro h
      exact ⟨hr, t, ht, (Except.ok.inj h).symm⟩
    · rintro ⟨-, t', ht', rfl⟩
      rw [ht, Except.ok.injEq] at ht'
      subst ht'
      rfl

theorem insert_eq_ok_iff {batch : List Submission} :
    x.insert batch = .ok y ↔
      x.roster.cycle? batch = none ∧ x.store.refusing = false ∧
        firstDuplicate (x.store.inner.jobs.map Job.id) batch = none ∧
        y = x.holding (x.store.inner.append batch) (x.roster.insert batch) := by
  unfold Index.insert
  cases hc : x.roster.cycle? batch with
  | some id => simp
  | none =>
    refine (writeThrough_eq_ok_iff .insert (Tables.insert batch) _).trans ?_
    cases hd : firstDuplicate (x.store.inner.jobs.map Job.id) batch with
    | some id => simp [Tables.insert, hd]
    | none => simp [Tables.insert, hd]

/-- A change of one record that the roster knows goes through if the tables know it too. -/
theorem writeThrough_modify_eq_ok_iff {id : JobId} {write : WriteCall} {f : Job → Job} {j : Job}
    (hf : ∀ j, (f j).id = j.id) (hg : x.roster.get? id = some j) :
    x.writeThrough (fun s => s.guarded write fun t => t.modify id f) (·.replace (f j)) = .ok y ↔
      x.store.refusing = false ∧ x.store.inner.contains id = true ∧
        y = x.holding
          { x.store.inner with jobs := modifyFirst (·.id == id) f x.store.inner.jobs }
          { x.roster with jobs := modifyFirst (·.id == id) f x.roster.jobs } := by
  have hid : j.id = id := by simpa using List.find?_some hg
  have hrep : x.roster.replace (f j)
      = { x.roster with jobs := modifyFirst (·.id == id) f x.roster.jobs } := by
    simp only [Roster.replace, hf, hid, modifyFirst_of_find? hg]
  refine (writeThrough_eq_ok_iff write (fun t => t.modify id f) _).trans ?_
  rw [hrep]
  cases hc : x.store.inner.contains id with
  | true => simp [Tables.modify, hc]
  | false => simp [Tables.modify, hc]

theorem setRunning_eq_ok_iff {id : JobId} {running : Bool} :
    x.setRunning id running = .ok y ↔
      x.roster.contains id = true ∧ x.store.refusing = false ∧ x.store.inner.contains id = true ∧
        y = x.holding
          { x.store.inner with
            jobs := modifyFirst (·.id == id) (fun j => { j with running }) x.store.inner.jobs }
          { x.roster with
            jobs := modifyFirst (·.id == id) (fun j => { j with running }) x.roster.jobs } := by
  unfold Index.setRunning
  cases hg : x.roster.get? id with
  | none => simp [Roster.contains, hg]
  | some j =>
    have hknown : x.roster.contains id = true := by simp [Roster.contains, hg]
    simp only [hknown, true_and]
    exact writeThrough_modify_eq_ok_iff (f := fun j => { j with running }) (fun _ => rfl) hg

theorem reschedule_eq_ok_iff {id : JobId} {running : Bool} {attempt : Int32} {due : Int64}
    {payload : ByteArray} :
    x.reschedule id running attempt due payload = .ok y ↔
      x.roster.contains id = true ∧ x.store.refusing = false ∧ x.store.inner.contains id = true ∧
        y = x.holding
          { x.store.inner with
            jobs := modifyFirst (·.id == id) (·.rescheduled running attempt due payload)
              x.store.inner.jobs }
          { x.roster with
            jobs := modifyFirst (·.id == id) (·.rescheduled running attempt due payload)
              x.roster.jobs } := by
  unfold Index.reschedule
  cases hg : x.roster.get? id with
  | none => simp [Roster.contains, hg]
  | some j =>
    have hknown : x.roster.contains id = true := by simp [Roster.contains, hg]
    simp only [hknown, true_and]
    exact writeThrough_modify_eq_ok_iff
      (f := fun j => j.rescheduled running attempt due payload) (fun _ => rfl) hg

theorem clearRunning_eq_ok_iff :
    x.clearRunning = .ok y ↔
      x.store.refusing = false ∧
        y = x.holding x.store.inner.clearRunning x.roster.clearRunning := by
  refine (writeThrough_eq_ok_iff .clearRunning (fun t => .ok t.clearRunning) _).trans ?_
  simp

theorem amend_eq_ok_iff {jobs : List Job} :
    x.amend jobs = .ok y ↔
      x.store.refusing = false ∧
        y = x.holding (x.store.inner.amend (jobs.filter fun j => x.roster.contains j.id))
          ((jobs.filter fun j => x.roster.contains j.id).foldl Roster.replace x.roster) := by
  simp only [Index.amend]
  refine (writeThrough_eq_ok_iff .amend
    (fun t => .ok (t.amend (jobs.filter fun j => x.roster.contains j.id))) _).trans ?_
  simp

theorem delete_eq_ok_iff {ids : List JobId} :
    x.delete ids = .ok y ↔
      x.store.refusing = false ∧
        y = x.holding (x.store.inner.delete ids) (x.roster.remove ids) := by
  refine (writeThrough_eq_ok_iff .delete (fun t => .ok (t.delete ids)) _).trans ?_
  simp

/-- A restart always succeeds: the tables are read past the switch. -/
theorem open_eq_ok_iff {s : Switched Tables} {d : Discipline} :
    Index.open s d = .ok y ↔
      y = { store := s, roster := .ofSnapshot s.inner.snapshot, discipline := d } := by
  show Except.ok _ = Except.ok y ↔ _
  rw [Except.ok.injEq]
  exact eq_comm

end Index

end Backlog
