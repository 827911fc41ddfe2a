/-
# Durable storage of jobs and rows

A store keeps three tables: jobs, guards and edges.  It is read in bulk once, when an index
is opened on it, and written before every change of the index.

* `Storage`: what a store can be asked to do.  Every write either fails and changes nothing,
  or returns the store as it is afterwards;
* `StoreError`, `WriteCall`: why a call can fail, and the writes by name;
* `Snapshot`: everything a store holds, jobs oldest first (`oldestFirst_pairwise`,
  `oldestFirst_perm`).
-/
import Backlog.Job

namespace Backlog

/-! ## 1. Errors -/

/-- The writes a store accepts. -/
inductive WriteCall
  | insert
  | setRunning
  | reschedule
  | clearRunning
  | amend
  | delete
deriving DecidableEq, Repr

/-- The name under which a refused write is reported. -/
def WriteCall.name : WriteCall → String
  | insert => "insert_jobs"
  | setRunning => "update_job_running_state"
  | reschedule => "update_job_after_retry"
  | clearRunning => "update_all_jobs_to_be_pending"
  | amend => "update_jobs"
  | delete => "delete_jobs"

/-- Why a store fails. -/
inductive StoreError
  /-- No job with this id is stored. -/
  | notFound (id : JobId)
  /-- A job with this id is stored already, or comes earlier in the same batch. -/
  | duplicate (id : JobId)
  /-- Writes are switched off. -/
  | refused (write : WriteCall)
  /-- The store cannot be reached. -/
  | unavailable
deriving DecidableEq, Repr

/-- The text of an error.  What an unreachable store reports is its own affair. -/
def StoreError.message : StoreError → String
  | notFound id => s!"not found: job: {id.text}"
  | duplicate id => s!"duplicate key: job: {id.text}"
  | refused write => s!"storage error: injected {write.name} error"
  | unavailable => "storage error"

/-! ## 2. Reading in bulk -/

/-- Whether `a` was created no later than `b`. -/
def Job.noLater (a b : Job) : Bool := decide (a.created ≤ b.created)

theorem Job.noLater_iff {a b : Job} : a.noLater b = true ↔ a.created.toInt ≤ b.created.toInt := by
  simp [Job.noLater, Int64.le_iff_toInt_le]

theorem Job.noLater_trans (a b c : Job) (h : a.noLater b = true) (h' : b.noLater c = true) :
    a.noLater c = true := by
  simp only [Job.noLater_iff] at *; omega

theorem Job.noLater_total (a b : Job) : (a.noLater b || b.noLater a) = true := by
  simp only [Bool.or_eq_true, Job.noLater_iff]; omega

/-- Jobs by creation time; jobs created together keep their order. -/
def oldestFirst (jobs : List Job) : List Job := jobs.mergeSort Job.noLater

theorem oldestFirst_perm (jobs : List Job) : (oldestFirst jobs).Perm jobs :=
  List.mergeSort_perm jobs Job.noLater

theorem oldestFirst_pairwise (jobs : List Job) :
    (oldestFirst jobs).Pairwise (fun a b => a.created.toInt ≤ b.created.toInt) :=
  (List.pairwise_mergeSort Job.noLater_trans Job.noLater_total jobs).imp Job.noLater_iff.mp

theorem mem_oldestFirst {jobs : List Job} {j : Job} : j ∈ oldestFirst jobs ↔ j ∈ jobs :=
  (oldestFirst_perm jobs).mem_iff

/-- Everything a store holds. -/
structure Snapshot where
  /-- Oldest first; jobs created together in the order in which they were inserted. -/
  jobs : List Job := []
  /-- In the order in which they were inserted. -/
  guards : List Guard := []
  /-- In the order in which they were inserted. -/
  edges : List Edge := []
deriving DecidableEq

/-! ## 3. The interface -/

/-- What a store can be asked to do. -/
class Storage (σ : Type) where
  /-- Everything the store holds. -/
  load : σ → Except StoreError Snapshot
  /-- Adds a batch of jobs with their rows, all of it or nothing. -/
  insert : List Submission → σ → Except StoreError σ
  /-- Sets the running flag of one job. -/
  setRunning : JobId → Bool → σ → Except StoreError σ
  /-- Records a retry: running flag, attempts made, due time and payload. -/
  reschedule : JobId → Bool → Int32 → Int64 → ByteArray → σ → Except StoreError σ
  /-- Clears the running flag of every job. -/
  clearRunning : σ → Except StoreError σ
  /-- Replaces the stored jobs that share an id with one of these. -/
  amend : List Job → σ → Except StoreError σ
  /-- Deletes jobs, their own rows, and every edge that waits on one of them. -/
  delete : List JobId → σ → Except StoreError σ

/-- The record of `j` after a retry. -/
def Job.rescheduled (j : Job) (running : Bool) (attempt : Int32) (due : Int64)
    (payload : ByteArray) : Job :=
  { j with running, attempt, due, payload }

end Backlog
