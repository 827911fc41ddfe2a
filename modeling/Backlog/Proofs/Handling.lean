/-
# Runs in which jobs are handed out only when they may be

A `Move` is one step of a scheduler that plays by the rules: it brings jobs that are not running,
hands out a job that may be handed out at some time, records a retry, deletes stored jobs, or
restarts.  `Handling` is a whole run of moves, and keeps a log of what happened to which job.

* `Move.effect`: all that a move does to the jobs on both sides, in one of five ways
  (`Effect`).  Invariants of runs are proved effect by effect, and never open a move again;
* `Handling.sameOrder`: in such runs nobody rewrites a creation time, so roster and tables keep
  jobs of one age in the same order;
* `Handling.exists_handOut`: what the log says was handed out could be handed out at that point.
-/
import Backlog.Proofs.Mirror
import Backlog.Proofs.Order

namespace Backlog

/-! ## 1. Moves -/

/-- What happened to a job. -/
inductive LogEntry
  | entered (j : Job)
  | handedOut (id : JobId)
  | gone (id : JobId)
deriving DecidableEq

/-- One step.  `admits` says which jobs may be added to the stored ones, and `d` is how queue
heads are chosen.  A move may come at any time, with the switch of the store in either place. -/
inductive Move (admits : List Job → List Job → Prop) (d : Discipline) :
    MemoryIndex → List LogEntry → MemoryIndex → Prop
  | insert {x y : MemoryIndex} {batch : List Submission} :
      (∀ s ∈ batch, s.WellFormed) → (∀ s ∈ batch, s.job.running = false) →
      admits x.roster.jobs (batch.map Submission.job) → x.perform (.insert batch) = .ok y →
      Move admits d x ((batch.map Submission.job).map .entered) y
  | handOut {x y : MemoryIndex} {j : Job} (now : Int64) :
      j ∈ x.eligible now → x.perform (.setRunning j.id true) = .ok y →
      Move admits d x [.handedOut j.id] y
  | retry {x y : MemoryIndex} {id : JobId} {attempt : Int32} {due : Int64} {payload : ByteArray} :
      x.perform (.reschedule id false attempt due payload) = .ok y → Move admits d x [] y
  | delete {x y : MemoryIndex} {ids : List JobId} :
      (∀ id ∈ ids, Held x.roster.jobs id) → x.perform (.delete ids) = .ok y →
      Move admits d x (ids.map .gone) y
  | reopen {x y : MemoryIndex} : x.perform (.reopen d) = .ok y → Move admits d x [] y
  | clearRunning {x y : MemoryIndex} : x.perform .clearRunning = .ok y → Move admits d x [] y
  | refuse {x y : MemoryIndex} {refusing : Bool} :
      x.perform (.refuse refusing) = .ok y → Move admits d x [] y

/-- A run of moves from empty tables, with its log. -/
inductive Handling (admits : List Job → List Job → Prop) (d : Discipline) :
    List LogEntry → MemoryIndex → Prop
  | fresh : Handling admits d [] (.fresh d)
  | move {log entries : List LogEntry} {x y : MemoryIndex} :
      Handling admits d log x → Move admits d x entries y → Handling admits d (log ++ entries) y

variable {admits : List Job → List Job → Prop} {d : Discipline}

theorem Move.reachable {entries : List LogEntry} {x y : MemoryIndex} (h : Move admits d x entries y)
    (hx : Reachable x) : Reachable y := by
  cases h with
  | insert hw hr ha hxy => exact hx.step (c := .insert _) hw hxy
  | handOut _ hj hxy => exact hx.step (c := .setRunning _ _) trivial hxy
  | retry hxy => exact hx.step (c := .reschedule _ _ _ _ _) trivial hxy
  | delete hk hxy => exact hx.step (c := .delete _) trivial hxy
  | reopen hxy => exact hx.step (c := .reopen d) trivial hxy
  | clearRunning hxy => exact hx.step (c := .clearRunning) trivial hxy
  | refuse hxy => exact hx.step (c := .refuse _) trivial hxy

theorem Handling.reachable {log : List LogEntry} {x : MemoryIndex} (h : Handling admits d log x) :
    Reachable x := by
  induction h with
  | fresh => exact .fresh d
  | move _ ht ih => exact ht.reachable ih

theorem Handling.inStep {log : List LogEntry} {x : MemoryIndex} (h : Handling admits d log x) :
    InStep x.roster x.store.inner :=
  h.reachable.inStep

theorem Handling.discipline {log : List LogEntry} {x : MemoryIndex} (h : Handling admits d log x) :
    x.discipline = d := by
  induction h with
  | fresh => rfl
  | move _ ht ih =>
    cases ht with
    | insert _ _ _ hxy => obtain ⟨-, -, -, rfl⟩ := Index.insert_eq_ok_iff.mp hxy; exact ih
    | handOut _ _ hxy => obtain ⟨-, -, -, rfl⟩ := Index.setRunning_eq_ok_iff.mp hxy; exact ih
    | retry hxy => obtain ⟨-, -, -, rfl⟩ := Index.reschedule_eq_ok_iff.mp hxy; exact ih
    | delete _ hxy => obtain ⟨-, rfl⟩ := Index.delete_eq_ok_iff.mp hxy; exact ih
    | reopen hxy => obtain rfl := Index.open_eq_ok_iff.mp hxy; rfl
    | clearRunning hxy => obtain ⟨-, rfl⟩ := Index.clearRunning_eq_ok_iff.mp hxy; exact ih
    | refuse hxy => obtain rfl := Except.ok.inj hxy; exact ih

/-- A change that goes through continues a run, if what it leaves is a move away. -/
theorem Handling.after {log entries : List LogEntry} {x : MemoryIndex}
    (h : Handling admits d log x) {c : Change} (hok : (x.perform c).isOk = true)
    (hmove : ∀ y, x.perform c = .ok y → Move admits d x entries y) :
    Handling admits d (log ++ entries) (x.after c) :=
  h.move (hmove _ (Index.perform_eq_after hok))

/-- A run stays a run if more jobs are admitted. -/
theorem Handling.mono {more : List Job → List Job → Prop} {log : List LogEntry} {x : MemoryIndex}
    (hmore : ∀ stored new, admits stored new → more stored new) (h : Handling admits d log x) :
    Handling more d log x := by
  induction h with
  | fresh => exact .fresh
  | move _ ht ih =>
    refine .move ih ?_
    cases ht with
    | insert hw hr ha hxy => exact .insert hw hr (hmore _ _ ha) hxy
    | handOut _ hj hxy => exact .handOut _ hj hxy
    | retry hxy => exact .retry hxy
    | delete hk hxy => exact .delete hk hxy
    | reopen hxy => exact .reopen hxy
    | clearRunning hxy => exact .clearRunning hxy
    | refuse hxy => exact .refuse hxy

/-! ## 2. What a move does to the jobs -/

/-- The record of the job with this id once it has been handed out. -/
def startedAt (id : JobId) (j : Job) : Job := if j.id = id then { j with running := true } else j

/-- A change of a record that leaves alone what queues go by. -/
structure KeepsPlace (f : Job → Job) : Prop where
  id : ∀ j, (f j).id = j.id
  queue : ∀ j, (f j).queue = j.queue
  created : ∀ j, (f j).created = j.created

theorem startedAt_keepsPlace (id : JobId) : KeepsPlace (startedAt id) := by
  refine ⟨fun j => ?_, fun j => ?_, fun j => ?_⟩ <;> unfold startedAt <;> split <;> rfl

theorem running_of_startedAt {id : JobId} {j : Job} (h : (startedAt id j).running = true) :
    j.id = id ∨ j.running = true := by
  by_cases hid : j.id = id
  · exact .inl hid
  · rw [startedAt, if_neg hid] at h
    exact .inr h

/-- `b` is not created before `a`, if both belong to one queue. -/
def NoLaterInQueue (a b : Job) : Prop :=
  ∀ q, a.queue = some q → b.queue = some q → a.created.toInt ≤ b.created.toInt

theorem noLaterInQueue_map {f : Job → Job} (hf : KeepsPlace f) {a b : Job} :
    NoLaterInQueue (f a) (f b) ↔ NoLaterInQueue a b := by
  simp only [NoLaterInQueue, hf.queue, hf.created]

/-- What a move does to the jobs of the roster and of the tables. -/
inductive Effect (admits : List Job → List Job → Prop) (d : Discipline) :
    List LogEntry → List Job → List Job → List Job → List Job → Prop
  /-- Jobs that are not running are added at the end of both. -/
  | enter {r t new : List Job} : (∀ j ∈ new, j.running = false) → admits r new →
      Effect admits d (new.map .entered) r t (r ++ new) (t ++ new)
  /-- A job that heads its queue is started. -/
  | start {r t : List Job} {j : Job} : j ∈ r →
      (∀ q, j.queue = some q → d.head? q r = some j) →
      Effect admits d [.handedOut j.id] r t (r.map (startedAt j.id)) (t.map (startedAt j.id))
  /-- Records change, but no job changes its place or starts to run. -/
  | settle {r t : List Job} {f : Job → Job} : KeepsPlace f →
      (∀ j, (f j).running = true → j.running = true) →
      Effect admits d [] r t (r.map f) (t.map f)
  | leave {r t : List Job} {ids : List JobId} :
      Effect admits d (ids.map .gone) r t (r.filter fun j => !ids.contains j.id)
        (t.filter fun j => !ids.contains j.id)
  /-- The roster is read afresh. -/
  | reread {r t : List Job} : Effect admits d [] r t (oldestFirst t) t

theorem Move.effect {entries : List LogEntry} {x y : MemoryIndex} (h : Move admits d x entries y)
    (hs : InStep x.roster x.store.inner) (hd : x.discipline = d) :
    Effect admits d entries x.roster.jobs x.store.inner.jobs y.roster.jobs y.store.inner.jobs := by
  have hmodify : ∀ {id : JobId} {f : Job → Job} {l : List Job}, (l.map Job.id).Nodup →
      modifyFirst (·.id == id) f l = l.map fun j => if j.id = id then f j else j :=
    modifyFirst_id_eq_map
  cases h with
  | insert hw hr ha hxy =>
    obtain ⟨-, -, -, rfl⟩ := Index.insert_eq_ok_iff.mp hxy
    rw [Index.roster_holding, Roster.jobs_insert]
    refine .enter (fun j hj => ?_) ha
    obtain ⟨s, hsb, rfl⟩ := List.mem_map.mp hj
    exact hr s hsb
  | handOut _ hj hxy =>
    obtain ⟨-, -, -, rfl⟩ := Index.setRunning_eq_ok_iff.mp hxy
    simp only [Index.roster_holding, Index.inner_holding, hmodify hs.roster_unique,
      hmodify hs.tables_unique]
    exact .start (Roster.mem_eligible_iff.mp hj).1 fun q hq =>
      hd ▸ Roster.head?_of_eligible hs.roster_unique hj hq
  | @retry _ id attempt due payload hxy =>
    obtain ⟨-, -, -, rfl⟩ := Index.reschedule_eq_ok_iff.mp hxy
    simp only [Index.roster_holding, Index.inner_holding, hmodify hs.roster_unique,
      hmodify hs.tables_unique]
    refine .settle ⟨fun j => ?_, fun j => ?_, fun j => ?_⟩ fun j hrun => ?_
    · split <;> rfl
    · split <;> rfl
    · split <;> rfl
    · by_cases hid : j.id = id
      · rw [if_pos hid] at hrun
        exact absurd hrun (by simp [Job.rescheduled])
      · rwa [if_neg hid] at hrun
  | delete hk hxy =>
    obtain ⟨-, rfl⟩ := Index.delete_eq_ok_iff.mp hxy
    exact .leave
  | reopen hxy =>
    obtain rfl := Index.open_eq_ok_iff.mp hxy
    exact .reread
  | clearRunning hxy =>
    obtain ⟨-, rfl⟩ := Index.clearRunning_eq_ok_iff.mp hxy
    exact .settle ⟨fun _ => rfl, fun _ => rfl, fun _ => rfl⟩ fun j hrun => absurd hrun (by simp)
  | refuse hxy =>
    obtain rfl := Except.ok.inj hxy
    have hid : ∀ l : List Job, l = l.map id := fun l => l.map_id.symm
    have h : Effect admits d [] x.roster.jobs x.store.inner.jobs (x.roster.jobs.map id)
        (x.store.inner.jobs.map id) :=
      .settle ⟨fun _ => rfl, fun _ => rfl, fun _ => rfl⟩ fun _ hrun => hrun
    rwa [← hid, ← hid] at h

theorem Effect.sameOrder {entries : List LogEntry} {r t r' t' : List Job}
    (he : Effect admits d entries r t r' t') (h : SameOrder r t) : SameOrder r' t' := by
  cases he with
  | enter _ _ => exact h.append _
  | start _ _ => exact h.map (startedAt_keepsPlace _).created
  | settle hf _ => exact h.map hf.created
  | leave => exact h.filter _
  | reread => exact oldestFirst_sameOrder _

theorem Handling.sameOrder {log : List LogEntry} {x : MemoryIndex} (h : Handling admits d log x) :
    SameOrder x.roster.jobs x.store.inner.jobs := by
  induction h with
  | fresh => exact .refl _
  | move hx ht ih => exact (ht.effect hx.inStep hx.discipline).sameOrder ih

/-- The head of a queue in the roster is its head in the tables. -/
theorem Handling.head?_tables {log : List LogEntry} {x : MemoryIndex}
    (h : Handling admits d log x) (q : String) :
    d.head? q x.roster.jobs = d.head? q x.store.inner.jobs :=
  h.sameOrder.head?_eq d q

/-- What every effect keeps is kept by runs. -/
theorem Handling.of_effect {P : List LogEntry → List Job → List Job → Prop} (h0 : P [] [] [])
    (hstep : ∀ {log entries : List LogEntry} {r t r' t' : List Job}, (t.map Job.id).Nodup →
      SameOrder r t → P log r t → Effect admits d entries r t r' t' → P (log ++ entries) r' t')
    {log : List LogEntry} {x : MemoryIndex} (h : Handling admits d log x) :
    P log x.roster.jobs x.store.inner.jobs := by
  induction h with
  | fresh => exact h0
  | move hx ht ih =>
    exact hstep hx.inStep.tables_unique hx.sameOrder ih (ht.effect hx.inStep hx.discipline)

/-! ## 3. Points of a run -/

theorem exists_eq_append_of_notMem {α : Type} {l₁ l₂ m n : List α} {e : α}
    (h : l₁ ++ e :: l₂ = m ++ n) (he : e ∉ n) : ∃ rest, m = l₁ ++ e :: rest := by
  rcases List.append_eq_append_iff.mp h with ⟨k, rfl, hk⟩ | ⟨k, rfl, hk⟩
  · cases k with
    | nil =>
      rw [List.nil_append] at hk
      exact absurd (hk ▸ List.mem_cons_self) he
    | cons a k =>
      rw [List.cons_append, List.cons.injEq] at hk
      exact ⟨k, by rw [hk.1]⟩
  · exact absurd (hk ▸ by simp) he

/-- What the log says was handed out could be handed out at that point of the run. -/
theorem Handling.exists_handOut {log : List LogEntry} {x : MemoryIndex}
    (h : Handling admits d log x) : ∀ {l₁ l₂ : List LogEntry} {id : JobId},
      log = l₁ ++ .handedOut id :: l₂ →
        ∃ y now j, Handling admits d l₁ y ∧ j ∈ y.eligible now ∧ j.id = id := by
  induction h with
  | fresh => intro l₁ l₂ id hlog; simp at hlog
  | @move log entries x y hx ht ih =>
    intro l₁ l₂ id hlog
    have hgo : LogEntry.handedOut id ∉ entries → ∃ y now j,
        Handling admits d l₁ y ∧ j ∈ y.eligible now ∧ j.id = id := by
      intro he
      obtain ⟨rest, hrest⟩ := exists_eq_append_of_notMem hlog.symm he
      exact ih hrest
    cases ht with
    | insert _ _ _ _ => exact hgo (by simp)
    | @handOut _ j now hj hxy =>
      rcases List.eq_nil_or_concat l₂ with rfl | ⟨l₂, e, rfl⟩
      · obtain ⟨rfl, heq⟩ := List.append_inj' hlog rfl
        cases heq
        exact ⟨x, now, j, hx, hj, rfl⟩
      · have hlog' : log ++ [.handedOut j.id] = (l₁ ++ .handedOut id :: l₂) ++ [e] := by
          rw [hlog]; simp
        exact ih (List.append_inj' hlog' rfl).1
    | retry _ => exact hgo (by simp)
    | delete _ _ => exact hgo (by simp)
    | reopen _ => exact hgo (by simp)
    | clearRunning _ => exact hgo (by simp)
    | refuse _ => exact hgo (by simp)

end Backlog
