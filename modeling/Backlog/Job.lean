/-
# Jobs and the rows that hang off them

A `Job` is the durable record of one unit of background work.  Two kinds of rows are filed
under a job's id: a `Guard` names a precondition that must hold before the job runs, and an
`Edge` names another job that must be gone first.  A `Submission` is a job together with the
rows it arrives with.

* `Job.isDue`, `Job.isExpired`, `Job.isSpent`: the three tests that time and attempts
  decide, each with its meaning over the integers (`isDue_iff`, `isExpired_iff`,
  `isSpent_iff`);
* `Submission.WellFormed`: every row of a submission belongs to the job it arrives with;
* `Submission.guardedBy_wellFormed`, `Submission.waitingOn_wellFormed`: the two ways to add a
  row keep that.
-/
import Backlog.Clamped

namespace Backlog

/-! ## 1. Ids -/

/-- The id of a job: any text, chosen by whoever submits the job. -/
structure JobId where
  text : String
deriving DecidableEq, Hashable, Repr, Inhabited

instance : ToString JobId := ⟨JobId.text⟩

/-- Ids are ordered by their code points. -/
def JobId.le (a b : JobId) : Bool := decide (a.text ≤ b.text)

/-! ## 2. The record -/

/-- Payloads are equal if their bytes are. -/
instance (priority := 2000) instDecidableEqPayload : DecidableEq ByteArray := fun a b =>
  decidable_of_iff (a.data = b.data) ByteArray.ext_iff.symm

/-- A limit of `-1` on attempts or instances stands for no limit. -/
def unlimited : Int32 := -1

/-- A lifespan of `-1` stands for a job that never expires. -/
def immortal : Int64 := -1

/-- While this queue holds a job, nothing but the head of this queue is handed out. -/
def migrationQueue : String := "MIGRATION"

/-- The durable record of one unit of background work.  Times and delays are milliseconds. -/
structure Job where
  id : JobId
  /-- The key of the decoder that turns the payload into something to run. -/
  factory : String
  /-- Jobs of one queue run one after the other, oldest first. -/
  queue : Option String := none
  created : Int64
  /-- The earliest time at which the job may be handed out. -/
  due : Int64 := 0
  /-- The number of attempts made so far. -/
  attempt : Int32 := 0
  maxAttempts : Int32 := 1
  /-- The longest delay between two attempts; negative for no limit. -/
  maxBackoff : Int64 := 30000
  /-- How many jobs with this factory key may be stored at once. -/
  maxInstances : Int32 := unlimited
  /-- How long after its creation the job may still be started. -/
  lifespan : Int64 := immortal
  payload : ByteArray := .empty
  /-- Whether the job has been handed to a worker. -/
  running : Bool := false
deriving DecidableEq

namespace Job

def isMigration (j : Job) : Bool := j.queue == some migrationQueue

/-- Whether the due time has come. -/
def isDue (j : Job) (now : Int64) : Bool := decide (j.due ≤ now)

/-- Whether the job outlived its lifespan.  The end of the lifespan is held within the range
of times, so a job with a very long one expires at the very last millisecond. -/
def isExpired (j : Job) (now : Int64) : Bool :=
  j.lifespan != immortal && decide (addClamped j.created j.lifespan ≤ now)

/-- Whether `attempts` attempts use up what the job is allowed. -/
def isSpent (j : Job) (attempts : Int32) : Bool :=
  j.maxAttempts != unlimited && decide (j.maxAttempts ≤ attempts)

theorem isDue_iff (j : Job) (now : Int64) : j.isDue now = true ↔ j.due.toInt ≤ now.toInt := by
  simp [isDue, Int64.le_iff_toInt_le]

theorem isExpired_iff (j : Job) (now : Int64) :
    j.isExpired now = true ↔
      j.lifespan ≠ immortal ∧
        clamp64 (j.created.toInt + j.lifespan.toInt) ≤ now.toInt := by
  simp [isExpired, Int64.le_iff_toInt_le, toInt_addClamped]

theorem isSpent_iff (j : Job) (attempts : Int32) :
    j.isSpent attempts = true ↔
      j.maxAttempts ≠ unlimited ∧ j.maxAttempts.toInt ≤ attempts.toInt := by
  simp [isSpent, Int32.le_iff_toInt_le]

end Job

/-! ## 3. Rows -/

/-- A row that keeps `job` from running until the precondition called `name` holds. -/
structure Guard where
  job : JobId
  name : String
deriving DecidableEq

/-- A row that keeps `job` from running while `waitsOn` is stored. -/
structure Edge where
  job : JobId
  waitsOn : JobId
deriving DecidableEq

/-! ## 4. Submissions -/

/-- A job with the rows it arrives with. -/
structure Submission where
  job : Job
  guards : List Guard := []
  edges : List Edge := []
deriving DecidableEq

namespace Submission

def id (s : Submission) : JobId := s.job.id

/-- Adds a precondition to the submitted job. -/
def guardedBy (s : Submission) (name : String) : Submission :=
  { s with guards := s.guards ++ [⟨s.id, name⟩] }

/-- Makes the submitted job wait for another. -/
def waitingOn (s : Submission) (other : JobId) : Submission :=
  { s with edges := s.edges ++ [⟨s.id, other⟩] }

/-- Every row belongs to the job it arrives with. -/
def WellFormed (s : Submission) : Prop :=
  (∀ g ∈ s.guards, g.job = s.id) ∧ ∀ e ∈ s.edges, e.job = s.id

instance (s : Submission) : Decidable s.WellFormed := by
  unfold WellFormed; infer_instance

theorem wellFormed_of_job (j : Job) : WellFormed { job := j } := by
  simp [WellFormed]

theorem guardedBy_wellFormed {s : Submission} (h : s.WellFormed) (name : String) :
    (s.guardedBy name).WellFormed := by
  refine ⟨fun g hg => ?_, h.2⟩
  rcases List.mem_append.mp hg with hg | hg
  · exact h.1 g hg
  · rw [List.mem_singleton.mp hg]; rfl

theorem waitingOn_wellFormed {s : Submission} (h : s.WellFormed) (other : JobId) :
    (s.waitingOn other).WellFormed := by
  refine ⟨h.1, fun e he => ?_⟩
  rcases List.mem_append.mp he with he | he
  · exact h.2 e he
  · rw [List.mem_singleton.mp he]; rfl

end Submission

/-- The parameters that a decoded job is told about itself. -/
structure Parameters where
  id : JobId
  factory : String
  queue : Option String
  created : Int64
  attempt : Int32
  maxAttempts : Int32
  maxBackoff : Int64
  lifespan : Int64
deriving DecidableEq

def Job.parameters (j : Job) : Parameters :=
  { id := j.id, factory := j.factory, queue := j.queue, created := j.created,
    attempt := j.attempt, maxAttempts := j.maxAttempts, maxBackoff := j.maxBackoff,
    lifespan := j.lifespan }

end Backlog
