/-
# A store held in memory

`Tables` keeps the three tables as plain lists in the order of insertion.  All three sit
behind one value, so a write that touches several of them is atomic by construction.

* `firstDuplicate`: the first job of a batch whose id is taken, with its exact meaning
  (`firstDuplicate_eq_none_iff`);
* one operation per write, gathered in the `Storage Tables` instance.
-/
import Backlog.Store

namespace Backlog

/-! ## 1. Changing one entry of a list -/

/-- Applies `f` to the first entry that satisfies `p`. -/
def modifyFirst {α : Type} (p : α → Bool) (f : α → α) : List α → List α
  | [] => []
  | a :: l => if p a then f a :: l else a :: modifyFirst p f l

@[simp] theorem length_modifyFirst {α : Type} (p : α → Bool) (f : α → α) (l : List α) :
    (modifyFirst p f l).length = l.length := by
  induction l with
  | nil => rfl
  | cons a l ih => simp only [modifyFirst]; split <;> simp [ih]

theorem modifyFirst_of_forall_not {α : Type} {p : α → Bool} {f : α → α} {l : List α}
    (h : ∀ a ∈ l, p a = false) : modifyFirst p f l = l := by
  induction l with
  | nil => rfl
  | cons a l ih =>
    simp only [modifyFirst, h a (by simp), Bool.false_eq_true, if_false]
    rw [ih fun b hb => h b (by simp [hb])]

/-- A field that `f` keeps is kept throughout the list. -/
theorem map_modifyFirst_of_keeps {α β : Type} {g : α → β} {p : α → Bool} {f : α → α}
    {l : List α} (h : ∀ a, p a = true → g (f a) = g a) :
    (modifyFirst p f l).map g = l.map g := by
  induction l with
  | nil => rfl
  | cons a l ih =>
    simp only [modifyFirst]
    split
    · next hp => simp [h a hp]
    · simp [ih]

/-! ## 2. The tables -/

/-- Three tables in memory, each in the order of insertion. -/
structure Tables where
  jobs : List Job := []
  guards : List Guard := []
  edges : List Edge := []
deriving DecidableEq

/-- The first submission whose id is among `taken` or comes earlier in the list. -/
def firstDuplicate (taken : List JobId) : List Submission → Option JobId
  | [] => none
  | s :: rest => if s.id ∈ taken then some s.id else firstDuplicate (s.id :: taken) rest

theorem firstDuplicate_eq_none_iff {taken : List JobId} {batch : List Submission} :
    firstDuplicate taken batch = none ↔
      (batch.map Submission.id).Nodup ∧ ∀ s ∈ batch, s.id ∉ taken := by
  induction batch generalizing taken with
  | nil => simp [firstDuplicate]
  | cons s rest ih =>
    simp only [firstDuplicate]
    split
    · next h => simp [h]
    · next h =>
      simp only [ih, List.map_cons, List.nodup_cons, List.mem_cons, List.mem_map, not_exists,
        not_and, not_or, forall_eq_or_imp]
      constructor
      · rintro ⟨hn, ha⟩
        exact ⟨⟨fun t ht => (ha t ht).1, hn⟩, h, fun t ht => (ha t ht).2⟩
      · rintro ⟨⟨hs, hn⟩, _, ha⟩
        exact ⟨hn, fun t ht => ⟨hs t ht, ha t ht⟩⟩

namespace Tables

/-- Everything in the tables, jobs oldest first. -/
def snapshot (t : Tables) : Snapshot :=
  { jobs := oldestFirst t.jobs, guards := t.guards, edges := t.edges }

/-- Whether a job with this id is stored. -/
def contains (t : Tables) (id : JobId) : Bool := t.jobs.any (·.id == id)

/-- The tables with a batch appended. -/
def append (t : Tables) (batch : List Submission) : Tables :=
  { jobs := t.jobs ++ batch.map Submission.job
    guards := t.guards ++ batch.flatMap Submission.guards
    edges := t.edges ++ batch.flatMap Submission.edges }

def insert (batch : List Submission) (t : Tables) : Except StoreError Tables :=
  match firstDuplicate (t.jobs.map Job.id) batch with
  | some id => .error (.duplicate id)
  | none => .ok (t.append batch)

/-- Changes the job with this id. -/
def modify (t : Tables) (id : JobId) (f : Job → Job) : Except StoreError Tables :=
  if t.contains id then .ok { t with jobs := modifyFirst (·.id == id) f t.jobs }
  else .error (.notFound id)

def setRunning (id : JobId) (running : Bool) (t : Tables) : Except StoreError Tables :=
  t.modify id fun j => { j with running }

def reschedule (id : JobId) (running : Bool) (attempt : Int32) (due : Int64)
    (payload : ByteArray) (t : Tables) : Except StoreError Tables :=
  t.modify id fun j => j.rescheduled running attempt due payload

def clearRunning (t : Tables) : Tables :=
  { t with jobs := t.jobs.map fun j => { j with running := false } }

/-- Replaces one stored job by the record that shares its id. -/
def replace (t : Tables) (j : Job) : Tables :=
  { t with jobs := modifyFirst (·.id == j.id) (fun _ => j) t.jobs }

def amend (jobs : List Job) (t : Tables) : Tables := jobs.foldl replace t

def delete (ids : List JobId) (t : Tables) : Tables :=
  { jobs := t.jobs.filter fun j => !ids.contains j.id
    guards := t.guards.filter fun g => !ids.contains g.job
    edges := t.edges.filter fun e => !ids.contains e.job && !ids.contains e.waitsOn }

instance : Storage Tables where
  load t := .ok t.snapshot
  insert := insert
  setRunning := setRunning
  reschedule := reschedule
  clearRunning t := .ok t.clearRunning
  amend jobs t := .ok (t.amend jobs)
  delete ids t := .ok (t.delete ids)

end Tables

end Backlog
