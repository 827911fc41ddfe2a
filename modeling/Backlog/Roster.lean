/-
# The roster: jobs and rows in memory

A `Roster` is what an index keeps in memory: the jobs in one list, and for each job the rows
filed under it.  Rows that arrive with a submission are filed under the submitted job; rows
read from a store are filed under the job they name.  The two agree on well-formed submissions.

* `Filed`: rows filed under ids;
* `Roster.ofSnapshot`, `Roster.insert`, `Roster.replace`, `Roster.remove`: the changes an index
  makes, with what each does to the jobs and to the rows filed under an id.
-/
import Backlog.Store.Tables

namespace Backlog

/-! ## 1. Rows filed under ids -/

/-- Rows filed under ids.  An id has at most one entry. -/
structure Filed (α : Type) where
  entries : List (JobId × List α) := []
  unique : (entries.map Prod.fst).Nodup := by exact List.nodup_nil

namespace Filed

variable {α : Type}

/-- The rows filed under `id`, in the order in which they were filed. -/
def rowsOf (f : Filed α) (id : JobId) : List α := (f.entries.lookup id).getD []

/-- All filed rows, entry by entry. -/
def all (f : Filed α) : List α := f.entries.flatMap Prod.snd

/-- Appends rows to the entry of `id`, opening one at the end if there is none. -/
def extend (id : JobId) (rows : List α) : List (JobId × List α) → List (JobId × List α)
  | [] => [(id, rows)]
  | (i, old) :: rest => if i = id then (i, old ++ rows) :: rest else (i, old) :: extend id rows rest

theorem mem_fst_extend {id i : JobId} {rows : List α} : ∀ {l : List (JobId × List α)},
    i ∈ (extend id rows l).map Prod.fst ↔ i = id ∨ i ∈ l.map Prod.fst
  | [] => by simp [extend]
  | (j, old) :: rest => by
    by_cases h : j = id
    · simp [extend, h]
    · simp only [extend, if_neg h, List.map_cons, List.mem_cons, mem_fst_extend (l := rest)]
      exact or_left_comm

theorem nodup_extend {id : JobId} {rows : List α} : ∀ {l : List (JobId × List α)},
    (l.map Prod.fst).Nodup → ((extend id rows l).map Prod.fst).Nodup
  | [], _ => by simp [extend]
  | (j, old) :: rest, h => by
    obtain ⟨hj, hrest⟩ := List.nodup_cons.mp h
    by_cases hji : j = id
    · simpa [extend, hji] using h
    · simp only [extend, if_neg hji, List.map_cons, List.nodup_cons]
      refine ⟨fun hmem => ?_, nodup_extend hrest⟩
      rcases mem_fst_extend.mp hmem with rfl | hmem
      · exact hji rfl
      · exact hj hmem

/-- Files rows under `id`.  Nothing happens if there are none. -/
def file (f : Filed α) (id : JobId) (rows : List α) : Filed α :=
  if rows.isEmpty then f else ⟨extend id rows f.entries, nodup_extend f.unique⟩

/-- Drops the entries of `ids`. -/
def dropAll (f : Filed α) (ids : List JobId) : Filed α :=
  ⟨f.entries.filter fun e => !ids.contains e.1, f.unique.sublist (List.filter_sublist.map _)⟩

/-- Keeps the rows that satisfy `p`, and drops the entries that this leaves empty. -/
def keep (p : α → Bool) (f : Filed α) : Filed α where
  entries := (f.entries.map fun e => (e.1, e.2.filter p)).filter fun e => !e.2.isEmpty
  unique := by
    refine List.Nodup.sublist (List.filter_sublist.map _) ?_
    simpa [List.map_map, Function.comp_def] using f.unique

/-- Files each row under the id that `key` reads off it. -/
def byKey (key : α → JobId) (rows : List α) : Filed α :=
  rows.foldl (fun f row => f.file (key row) [row]) {}

end Filed

/-! ## 2. The roster -/

/-- The jobs of an index and the rows filed under them. -/
structure Roster where
  jobs : List Job := []
  guards : Filed Guard := {}
  edges : Filed Edge := {}

namespace Roster

/-- The roster of a freshly read store: every row under the job it names. -/
def ofSnapshot (s : Snapshot) : Roster :=
  { jobs := s.jobs, guards := .byKey Guard.job s.guards, edges := .byKey Edge.job s.edges }

/-- Adds one submission: its rows are filed under the submitted job. -/
def enter (r : Roster) (s : Submission) : Roster :=
  { jobs := r.jobs ++ [s.job]
    guards := r.guards.file s.id s.guards
    edges := r.edges.file s.id s.edges }

/-- Adds a batch of submissions in order. -/
def insert (r : Roster) (batch : List Submission) : Roster := batch.foldl enter r

/-- The job with this id. -/
def get? (r : Roster) (id : JobId) : Option Job := r.jobs.find? (·.id == id)

def contains (r : Roster) (id : JobId) : Bool := (r.get? id).isSome

/-- Replaces the record that shares its id with `j`. -/
def replace (r : Roster) (j : Job) : Roster :=
  { r with jobs := modifyFirst (·.id == j.id) (fun _ => j) r.jobs }

/-- Clears every running flag. -/
def clearRunning (r : Roster) : Roster :=
  { r with jobs := r.jobs.map fun j => { j with running := false } }

/-- Removes jobs, their own rows, and every edge that waits on one of them. -/
def remove (r : Roster) (ids : List JobId) : Roster :=
  { jobs := r.jobs.filter fun j => !ids.contains j.id
    guards := r.guards.dropAll ids
    edges := (r.edges.dropAll ids).keep fun e => !ids.contains e.waitsOn }

/-- The submission that would bring the job with this id and the rows filed under it. -/
def submission? (r : Roster) (id : JobId) : Option Submission :=
  (r.get? id).map fun j => { job := j, guards := r.guards.rowsOf id, edges := r.edges.rowsOf id }

/-- The number of jobs with this factory key. -/
def countOf (r : Roster) (factory : String) : Nat := r.jobs.countP (·.factory == factory)

/-- Whether no job belongs to any of these queues. -/
def queuesEmpty (r : Roster) (queues : List String) : Bool :=
  !r.jobs.any fun j => j.queue.any queues.contains

end Roster

end Backlog
