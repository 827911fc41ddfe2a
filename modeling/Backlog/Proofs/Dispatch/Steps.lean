/-
# The steps of a dispatcher

A dispatcher takes batches in, looks for work, and lets attempts begin and end, in any order.  Its
runner decides what is done to the index when an attempt ends, its conditions may change from one
look to the next, and its store may refuse any write and take it a moment later.  In between,
attempts note what they like, and a dispatcher that is stopped cuts them off.

* `Runner.Settled`: what the end of an attempt does to the index, whatever the job and its hooks do,
  and `Runner.Ended`: what it does by its verdict;
* `Runner.Concluded`: all that recording an outcome may come to (`Runner.conclude_concluded`), from
  which what it does to the index follows;
* `Dispatch.Step`, `Dispatch.Running`: one step, and the states after a start and any number of
  steps.
-/
import Backlog.Dispatch
import Backlog.Proofs.Attempt

namespace Backlog

variable {σ : Type} [Storage σ] [Tabular σ]

/-! ## 1. The end of an attempt -/

namespace Runner

/-- What the end of an attempt of `j` does to an index: nothing, or `j` is dropped, alone or with
all that falls with it, or it has another record. -/
inductive Settled (r : Runner) (j : Job) (x : Index σ) : Index σ → Prop
  | untouched : Settled r j x x
  | dropped {y : Index σ} {fallen : List Job} : (fallen = [] ∨ fallen = r.fallen x j) →
    Dropped x y (j.id :: fallen.map Job.id) → Settled r j x y
  | again {y : Index σ} {again : Job} : Recorded x y again → again.id = j.id → Settled r j x y

/-- The same by the verdict.  A refused write has changed nothing, and a job that is still there
otherwise is to be attempted again, and rests until then. -/
inductive Ended (r : Runner) (j : Job) (x : Index σ) : Verdict → Index σ → Prop
  | refused {cause : IndexError} : Ended r j x (.refused cause) x
  | dropped {v : Verdict} {y : Index σ} {fallen : List Job} : (∀ cause, v ≠ .refused cause) →
    (fallen = [] ∨ fallen = r.fallen x j) → Dropped x y (j.id :: fallen.map Job.id) →
    Ended r j x v y
  | again {y : Index σ} {again : Job} : Recorded x y again → again.id = j.id →
    again.running = false → Ended r j x (.done .retry) y

variable {r : Runner} {m : Moment} {j : Job} {d : Desk σ}

theorem Ended.settled {x y : Index σ} {v : Verdict} (h : Ended r j x v y) : Settled r j x y := by
  cases h with
  | refused => exact .untouched
  | dropped _ hor hdrop => exact .dropped hor hdrop
  | again hrec hid _ => exact .again hrec hid

theorem Downfall.ended {live : Option Hooks} {fatal : Bool} {reason : String} {outcome : Outcome}
    {v : Verdict} {d' : Desk σ} (h : r.Downfall j live fatal reason outcome d v d') :
    Ended r j d.index v d'.index := by
  cases h with
  | refused _ => exact .refused
  | dropped hdel hv _ _ =>
    have hv : ∀ cause, v ≠ .refused cause := by rcases hv with ⟨rfl, -⟩ | rfl <;> simp
    exact .dropped hv (.inr rfl) (Index.delete_dropped hdel)

omit [Tabular σ] in
/-- A job that is given up is not to be attempted again. -/
theorem Downfall.ne_retry {live : Option Hooks} {fatal : Bool} {reason : String} {outcome : Outcome}
    {v : Verdict} {d' : Desk σ} (h : r.Downfall j live fatal reason outcome d v d')
    (hout : outcome.isFailure = true) : v ≠ .done .retry := by
  rintro rfl
  cases h with
  | dropped _ hv =>
    obtain ⟨rfl, -⟩ : Outcome.retry = outcome ∧ _ := by simpa using hv
    simp [Outcome.isFailure] at hout

/-- When a retry is due. -/
def nextDue (r : Runner) (m : Moment) (j : Job) (h : Hooks) : Int64 :=
  (h.backoff.getD r.defaultBackoff).nextDue m.now (succClamped j.attempt) j.maxBackoff m.draw

/-- What recording the end of an attempt comes to, or of an attempt that is not made. -/
inductive Concluded (r : Runner) (m : Moment) (j : Job) (d : Desk σ) :
    Option Behaviour → Verdict → Desk σ → Prop
  | refused {ran : Option Behaviour} {cause : IndexError} : Concluded r m j d ran (.refused cause) d
  | succeeded {b : Behaviour} {index : Index σ} : d.index.delete [j.id] = .ok index →
    Concluded r m j d (some b) (.done .success) ({ d with index }.emit (.succeeded j.id))
  | retried {b : Behaviour} {saved : Option ByteArray} {index : Index σ} :
    b.outcome = some .retry → b.spent.saved = .ok saved →
    d.index.reschedule j.id false (succClamped j.attempt) (r.nextDue m j b.spent)
      (saved.getD j.payload) = .ok index →
    Concluded r m j d (some b) (.done .retry) ({ d with index }.emit
      (.retrying j.id (succClamped j.attempt) j.maxAttempts (r.nextDue m j b.spent)))
  | fell {ran : Option Behaviour} {live : Option Hooks} {fatal : Bool} {reason : String}
    {outcome : Outcome} {v : Verdict} {d' : Desk σ} :
    live = none ∨ live = ran.map Behaviour.spent → outcome.isFailure = true →
    r.Downfall j live fatal reason outcome d v d' → Concluded r m j d ran v d'

omit [Tabular σ] in
theorem conclude_concluded (r : Runner) (m : Moment) (j : Job) (b : Behaviour) (d : Desk σ) :
    Concluded r m j d (some b) (r.conclude m j b d).1 (r.conclude m j b d).2 := by
  unfold conclude
  cases ho : b.outcome with
  | none => exact .fell (.inl rfl) rfl (fail_downfall ..)
  | some o =>
    cases o with
    | success =>
      cases hdel : d.index.delete [j.id] with
      | error cause => exact .refused
      | ok index => exact .succeeded hdel
    | retry =>
      unfold retry
      cases hspent : j.isSpent (succClamped j.attempt) with
      | true =>
        simp only [hspent, if_true]
        exact .fell (.inr rfl) rfl (fail_downfall ..)
      | false =>
        simp only [hspent, Bool.false_eq_true, if_false]
        cases hsaved : b.spent.saved with
        | error e => exact .fell (.inr rfl) rfl (fail_downfall ..)
        | ok saved =>
          simp only
          split
          · exact .refused
          · rename_i index hres
            exact .retried ho hsaved hres
    | failure => exact .fell (.inr rfl) rfl (fail_downfall ..)
    | fatalFailure => exact .fell (.inr rfl) rfl (fail_downfall ..)

omit [Tabular σ] in
theorem concluded_of_conclude {b : Behaviour} {v : Verdict} {d' : Desk σ}
    (h : r.conclude m j b d = (v, d')) : Concluded r m j d (some b) v d' := by
  have hconcluded := conclude_concluded r m j b d
  rwa [h] at hconcluded

/-- The job may be gone by then; it must not be there with another record. -/
theorem Concluded.ended {ran : Option Behaviour} {v : Verdict} {d' : Desk σ}
    (h : Concluded r m j d ran v d') (hm : Matched d.index.roster d.index.stored)
    (hj : Held d.index.roster.jobs j.id → j ∈ d.index.roster.jobs) :
    Ended r j d.index v d'.index := by
  cases h with
  | refused => exact .refused
  | succeeded hdel => exact .dropped (by simp) (.inl (Eq.refl [])) (Index.delete_dropped hdel)
  | retried _ _ hres =>
    exact .again (Index.reschedule_recorded hm (hj (Index.held_of_reschedule hres)) hres) rfl rfl
  | fell _ _ hdown => exact hdown.ended

/-- Whatever an attempt came to, and whatever the hooks do. -/
theorem conclude_ended (hm : Matched d.index.roster d.index.stored)
    (hj : j ∈ d.index.roster.jobs) (b : Behaviour) :
    Ended r j d.index (r.conclude m j b d).1 (r.conclude m j b d).2.index :=
  (conclude_concluded r m j b d).ended hm fun _ => hj

theorem conclude_settled (hm : Matched d.index.roster d.index.stored)
    (hj : j ∈ d.index.roster.jobs) (b : Behaviour) :
    Settled r j d.index (r.conclude m j b d).2.index :=
  (conclude_ended hm hj b).settled

omit [Tabular σ] in
/-- If there is no attempt to be made, the job is given up. -/
theorem start_eq_inl {v : Verdict} {d' : Desk σ} (h : r.start m j d = (.inl v, d')) :
    ∃ fatal reason outcome, Outcome.isFailure outcome = true ∧
      r.Downfall j none fatal reason outcome d v d' := by
  unfold start at h
  cases hexp : j.isExpired m.now with
  | true =>
    simp only [hexp, if_true] at h
    cases h
    exact ⟨_, _, _, rfl, fail_downfall ..⟩
  | false =>
    simp only [hexp, Bool.false_eq_true, if_false] at h
    cases hdec : r.registry.decode j with
    | error e =>
      simp only [hdec] at h
      cases h
      exact ⟨_, _, _, rfl, fail_downfall ..⟩
    | ok b =>
      simp only [hdec] at h
      cases h

omit [Tabular σ] in
theorem concluded_of_start {v : Verdict} {d' : Desk σ} (h : r.start m j d = (.inl v, d')) :
    Concluded r m j d none v d' := by
  obtain ⟨fatal, reason, outcome, hout, hdown⟩ := start_eq_inl h
  exact .fell (.inl rfl) hout hdown

omit [Tabular σ] in
/-- If there is one, that is announced and nothing else has happened yet. -/
theorem start_eq_inr {b : Behaviour} {d' : Desk σ} (h : r.start m j d = (.inr b, d')) :
    r.Attempts m j b ∧ d' = d.emit (.started j.id j.attempt) := by
  unfold start at h
  cases hexp : j.isExpired m.now with
  | true =>
    simp only [hexp, if_true] at h
    cases h
  | false =>
    simp only [hexp, Bool.false_eq_true, if_false] at h
    cases hdec : r.registry.decode j with
    | error e =>
      simp only [hdec] at h
      cases h
    | ok b' =>
      simp only [hdec] at h
      cases h
      exact ⟨⟨hexp, hdec⟩, rfl⟩

/-- Before the attempt, the job may have been given up already. -/
theorem start_ended {v : Verdict} {d' : Desk σ} (h : r.start m j d = (.inl v, d')) :
    Ended r j d.index v d'.index := by
  obtain ⟨fatal, reason, outcome, -, hdown⟩ := start_eq_inl h
  exact hdown.ended

omit [Tabular σ] in
theorem index_of_start {b : Behaviour} {d' : Desk σ} (h : r.start m j d = (.inr b, d')) :
    d'.index = d.index := by
  obtain ⟨-, rfl⟩ := start_eq_inr h
  rfl

end Runner

/-! ## 2. Steps -/

namespace Dispatch

/-- The same dispatcher on another store. -/
def on (d : Dispatch σ) (store : σ) : Dispatch σ :=
  { d with desk := { d.desk with index := { d.desk.index with store } } }

section

variable {r : Runner} {m : Moment} {t : Ticket} {d d' : Dispatch σ}

omit [Tabular σ]

/-- A batch that is taken in is stored and announced. -/
theorem enqueue_eq_ok {batch : List Submission} (h : d.enqueue batch = .ok d') :
    ∃ index, d.desk.index.insert batch = .ok index ∧
      d' = { d with desk := { d.desk with
        index, events := d.desk.events ++ batch.map fun s => .enqueued s.id s.job.factory } } := by
  unfold Dispatch.enqueue at h
  split at h
  · cases h
  · split at h
    · cases h
    · rename_i index hins
      exact ⟨index, hins, (Except.ok.inj h).symm⟩

theorem launch_eq_inl {v : Verdict} (h : d.launch r m t = (.inl v, d')) :
    ∃ desk, r.start m t.job d.desk = (.inl v, desk) ∧ d' = { d with desk }.collect t := by
  unfold Dispatch.launch at h
  cases hstart : r.start m t.job d.desk with
  | mk left desk =>
    rw [hstart] at h
    cases left with
    | inl v' =>
      cases h
      exact ⟨desk, rfl, rfl⟩
    | inr b => cases h

theorem launch_eq_inr {b : Behaviour} (h : d.launch r m t = (.inr b, d')) :
    ∃ desk, r.start m t.job d.desk = (.inr b, desk) ∧ d' = { d with desk } := by
  unfold Dispatch.launch at h
  cases hstart : r.start m t.job d.desk with
  | mk left desk =>
    rw [hstart] at h
    cases left with
    | inl v => cases h
    | inr b' =>
      cases h
      exact ⟨desk, rfl, rfl⟩

end

/-- What can happen to a dispatcher of `workers` workers whose runner lets failures cascade or not.

The time, the conditions and the runner are whatever they are at each step: an attempt in flight may
end in any way.  A batch that is turned down changes nothing, and is no step. -/
inductive Step (workers : Nat) (cascade : Bool) : Dispatch σ → Dispatch σ → Prop
  | enqueue {batch : List Submission} {d d' : Dispatch σ} :
    d.enqueue batch = .ok d' → Step workers cascade d d'
  /-- A look for work. -/
  | pass (now : Int64) (c : Conditions) (d : Dispatch σ) :
    Step workers cascade d (d.pass workers now c)
  /-- An attempt begins, or it turns out that there is none to be made. -/
  | launch {r : Runner} (m : Moment) {t : Ticket} {d : Dispatch σ} : r.cascade = cascade →
    t ∈ d.inFlight → Step workers cascade d (d.launch r m t).2
  /-- An attempt ends. -/
  | finish {r : Runner} (m : Moment) {t : Ticket} (b : Behaviour) {d : Dispatch σ} :
    r.cascade = cascade → t ∈ d.inFlight → Step workers cascade d (d.finish r m t b).2
  /-- An attempt notes something. -/
  | jot (notes : List Note) (d : Dispatch σ) :
    Step workers cascade d { d with desk := d.desk.jot notes }
  /-- All attempts are cut off; their jobs are left as they are. -/
  | cutOff (d : Dispatch σ) : Step workers cascade d { d with inFlight := [] }
  /-- The store changes its mind about what it refuses. -/
  | stir {d : Dispatch σ} {store : σ} : Tabular.tables store = d.desk.index.stored →
    Step workers cascade d (d.on store)

/-- The states of a dispatcher that was started on an index whose roster and tables hold the same
jobs. -/
inductive Running (workers : Nat) (cascade : Bool) : Dispatch σ → Prop
  | start {x y : Index σ} : Matched x.roster x.stored → x.clearRunning = .ok y →
    Running workers cascade { desk := { index := y } }
  | step {d d' : Dispatch σ} : Running workers cascade d → Step workers cascade d d' →
    Running workers cascade d'

theorem Running.trans {workers : Nat} {cascade : Bool} {d d' : Dispatch σ}
    (h : Running workers cascade d) (hd : Relation.ReflTransGen (Step workers cascade) d d') :
    Running workers cascade d' := by
  induction hd with
  | refl => exact h
  | tail _ hd ih => exact ih.step hd

end Dispatch

end Backlog
