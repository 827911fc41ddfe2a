/-
# Taking a batch in

A dispatcher checks a batch against the limits of its jobs, hands it to the index, and announces its
jobs.  Each of the first two may turn the batch down, and the second for reasons of its own.  This
module says which it will be, and that a batch that is turned down by either has left no trace.

* `Dispatch.Over`, `Dispatch.FirstOver`: a job that goes beyond its limit, and the one of them that
  is reported;
* `AtWork`, `takeIn`: the same in place, one assignment after the other, where each announcement is
  kept together with the index that a listener finds when it hears of it;
* `takeIn_makes`: it ends as `enqueue` says, and nothing is assigned before both have agreed;
* `IntakeAnswers`, `TakenIn`: when a batch is turned down and for which reason, and what is left of
  one that is not;
* `enqueue_all_or_nothing`: **that these hold after every run.**
-/
import Backlog.Proofs.AllOrNothing
import Backlog.Proofs.Dispatch.Limits

namespace Backlog

/-- The stored jobs with this factory key. -/
def Tables.countOf (t : Tables) (factory : String) : Nat := t.jobs.countP (·.factory == factory)

/-- Memory and store hold equally many jobs of each kind. -/
theorem Matched.countOf_eq {r : Roster} {t : Tables} (h : Matched r t) (factory : String) :
    r.countOf factory = t.countOf factory := h.perm.countP_eq _

namespace Dispatch

/-! ## 1. Jobs that go beyond their limit -/

section Limits

variable {σ : Type} {x : Index σ} {batch before front behind : List Submission} {s : Submission}

/-- With the jobs that are stored and those in front of it, the job goes beyond the limit that it
carries.  A negative limit other than "no limit" stands for zero. -/
def Over (t : Tables) (front : List Submission) (s : Submission) : Prop :=
  s.job.maxInstances ≠ unlimited ∧
    max 0 s.job.maxInstances.toInt <
      ((t.countOf s.job.factory + countIn (front ++ [s]) s.job.factory : Nat) : Int)

/-- No job of the batch goes beyond its limit. -/
def AllWithin (t : Tables) (batch : List Submission) : Prop :=
  ∀ front s behind, batch = front ++ s :: behind → ¬Over t front s

/-- The job goes beyond its limit, and no job in front of it does. -/
def FirstOver (t : Tables) (batch : List Submission) (s : Submission) : Prop :=
  ∃ front behind, batch = front ++ s :: behind ∧ Over t front s ∧ AllWithin t front

theorem over_iff {t : Tables} :
    Over t front s ↔
      ¬s.job.allows (t.countOf s.job.factory + countIn (front ++ [s]) s.job.factory) := by
  rw [Over, Job.allows, not_or, not_le]
  exact and_congr_right fun _ => by omega

theorem countIn_concat_self (front : List Submission) (s : Submission) :
    countIn (front ++ [s]) s.job.factory = countIn front s.job.factory + 1 := by
  rw [countIn_append, countIn_cons_self]
  rfl

/-- The check of one job, and of those behind it. -/
theorem overLimit?_cons (s : Submission) (rest : List Submission) :
    overLimit? x before (s :: rest) =
      if s.job.allows (x.roster.countOf s.job.factory + countIn (before ++ [s]) s.job.factory) then
        overLimit? x (before ++ [s]) rest
      else some (s.job.factory, s.job.maxInstances) := by
  rw [overLimit?, countIn_concat_self, ← Nat.add_assoc]
  split
  · next hover => exact (if_neg fun h => h.elim hover.1 (not_le.mpr hover.2)).symm
  · next hwithin =>
    rw [not_and_or, not_not, not_lt] at hwithin
    exact (if_pos hwithin).symm

/-- The check can be made in two parts. -/
theorem overLimit?_append : ∀ {xs before : List Submission} (ys : List Submission),
    overLimit? x before (xs ++ ys)
      = (overLimit? x before xs).or (overLimit? x (before ++ xs) ys)
  | [], before, ys => by simp [overLimit?]
  | s :: xs, before, ys => by
    rw [List.cons_append, overLimit?_cons, overLimit?_cons]
    split
    · rw [overLimit?_append, List.append_assoc]
      rfl
    · rfl

theorem overLimit?_eq_none_iff_allWithin {t : Tables}
    (hcount : ∀ factory, x.roster.countOf factory = t.countOf factory) :
    overLimit? x [] batch = none ↔ AllWithin t batch := by
  rw [overLimit?_eq_none_iff]
  simp only [AllWithin, over_iff, not_not, List.nil_append, hcount, countIn_concat_self,
    ← Nat.add_assoc]

/-- If some job goes beyond its limit, then one of them is the first. -/
theorem exists_firstOver {t : Tables} {batch : List Submission} (h : ¬AllWithin t batch) :
    ∃ s, FirstOver t batch s := by
  induction batch using List.reverseRecOn with
  | nil => exact absurd (fun front s behind hsplit => by simp at hsplit) h
  | append_singleton rest last ih =>
    by_cases hrest : AllWithin t rest
    · refine ⟨last, rest, [], rfl, ?_, hrest⟩
      by_contra hlast
      refine h fun front s behind hsplit => ?_
      rcases List.eq_nil_or_concat behind with rfl | ⟨mid, u, rfl⟩
      · obtain ⟨rfl, hs⟩ := List.append_inj' hsplit rfl
        obtain rfl := List.singleton_inj.mp hs
        exact hlast
      · have hsplit' : rest ++ [last] = (front ++ s :: mid) ++ [u] := by simpa using hsplit
        obtain ⟨rfl, -⟩ := List.append_inj' hsplit' rfl
        exact hrest front s mid rfl
    · obtain ⟨s, front, behind, rfl, hover, hfront⟩ := ih hrest
      exact ⟨s, front, behind ++ [last], by simp, hover, hfront⟩

/-- What the check reports is the first job that goes beyond its limit. -/
theorem overLimit?_eq_some_iff {t : Tables}
    (hcount : ∀ factory, x.roster.countOf factory = t.countOf factory) {key : String}
    {limit : Int32} :
    overLimit? x [] batch = some (key, limit) ↔
      ∃ s, FirstOver t batch s ∧ s.job.factory = key ∧ s.job.maxInstances = limit := by
  have hhere : ∀ front (s : Submission) behind, AllWithin t front → Over t front s →
      overLimit? x [] (front ++ s :: behind) = some (s.job.factory, s.job.maxInstances) := by
    intro front s behind hfront hover
    rw [overLimit?_append, (overLimit?_eq_none_iff_allWithin hcount).mpr hfront, Option.none_or,
      overLimit?_cons, List.nil_append, hcount, if_neg (over_iff.mp hover)]
  constructor
  · intro hsome
    have hnot : ¬AllWithin t batch := fun hall => by
      rw [(overLimit?_eq_none_iff_allWithin hcount).mpr hall] at hsome
      cases hsome
    obtain ⟨s, front, behind, rfl, hover, hfront⟩ := exists_firstOver hnot
    rw [hhere front s behind hfront hover, Option.some.injEq, Prod.mk.injEq] at hsome
    exact ⟨s, ⟨front, behind, rfl, hover, hfront⟩, hsome⟩
  · rintro ⟨s, ⟨front, behind, rfl, hover, hfront⟩, rfl, rfl⟩
    exact hhere front s behind hfront hover

end Limits

end Dispatch

/-! ## 2. In place -/

/-- What is announced about a job that was taken in. -/
def Submission.announcement (s : Submission) : Event := .enqueued s.id s.job.factory

/-- A dispatcher at work.  Each announcement is kept together with the index that is there when it
is made. -/
structure AtWork where
  dispatch : Dispatch (Switched Tables)
  heard : List (Event × MemoryIndex) := []

namespace AtWork

def withIndex (index : MemoryIndex) (a : AtWork) : AtWork :=
  { a with dispatch := { a.dispatch with desk := { a.dispatch.desk with index } } }

def announce (e : Event) (a : AtWork) : AtWork :=
  { dispatch := { a.dispatch with desk := a.dispatch.desk.emit e }
    heard := a.heard ++ [(e, a.dispatch.desk.index)] }

/-- Announcements leave the index alone, so all of them are made over the same one. -/
theorem foldl_announce : ∀ (batch : List Submission) (a : AtWork),
    batch.foldl (fun a s => a.announce s.announcement) a =
      { dispatch := { a.dispatch with
          desk := { a.dispatch.desk with
            events := a.dispatch.desk.events ++ batch.map Submission.announcement } }
        heard := a.heard ++ batch.map fun s => (s.announcement, a.dispatch.desk.index) }
  | [], a => by simp
  | s :: rest, a => by
    rw [List.foldl_cons, foldl_announce rest]
    simp [announce, Desk.emit]

end AtWork

namespace Edit

/-- Looks at the jobs one after the other and counts those of each kind.  Breaks off at the first
one that goes beyond its limit. -/
def inspect : (String → Nat) → List Submission → Edit DispatchError AtWork Unit
  | _, [] => pure ()
  | counted, s :: rest => do
    let counted := Function.update counted s.job.factory (counted s.job.factory + 1)
    let stored := (← get).dispatch.desk.index.roster.countOf s.job.factory
    if s.job.maxInstances ≠ unlimited ∧
        s.job.maxInstances.toInt.toNat < stored + counted s.job.factory then
      throw (.tooMany s.job.factory s.job.maxInstances)
    else inspect counted rest

/-- Takes a batch in: its jobs are held against their limits, then it is inserted, and then they are
announced one after the other. -/
def takeIn (batch : List Submission) : Edit DispatchError AtWork Unit := do
  inspect (fun _ => 0) batch
  (change (.insert batch)).within (·.dispatch.desk.index) AtWork.withIndex .index
  batch.forM fun s => modify (·.announce s.announcement)

/-- One more job of its kind has been counted. -/
theorem update_countIn (before : List Submission) (s : Submission) :
    Function.update (Dispatch.countIn before) s.job.factory
        (Dispatch.countIn before s.job.factory + 1)
      = Dispatch.countIn (before ++ [s]) := by
  funext key
  by_cases hkey : key = s.job.factory
  · rw [hkey, Function.update_self, Dispatch.countIn_concat_self]
  · have hother : Dispatch.countIn [s] key = 0 :=
      List.countP_cons_of_neg (by simpa using fun h => hkey h.symm)
    rw [Function.update_of_ne hkey, Dispatch.countIn_append, hother, Nat.add_zero]

/-- The counts that are kept are those of the jobs in front. -/
theorem inspect_makes : ∀ batch before : List Submission,
    (inspect (Dispatch.countIn before) batch).Makes fun a =>
      ((Dispatch.overLimit? a.dispatch.desk.index before batch).map fun found =>
        DispatchError.tooMany found.1 found.2).elim (.ok a) .error
  | [], _ => fun _ => rfl
  | s :: rest, before => by
    intro a
    have ih := inspect_makes rest (before ++ [s]) a
    simp only [inspect, EStateM.run_bind, EStateM.run_get, update_countIn, Dispatch.overLimit?,
      Dispatch.countIn_concat_self, ← Nat.add_assoc]
    split
    · rfl
    · exact ih

/-- **Taking a batch in ends as its operation says, and is broken off only before anything is
assigned.**  Whoever hears of one of its jobs finds all of them stored. -/
theorem takeIn_makes (batch : List Submission) :
    (takeIn batch).Makes fun a => (a.dispatch.enqueue batch).map fun d =>
      { dispatch := d
        heard := a.heard ++ batch.map fun s => (s.announcement, d.desk.index) } := by
  have hinsert := (change_makes (.insert batch)).within (·.dispatch.desk.index) AtWork.withIndex
    DispatchError.index fun _ => rfl
  have hannounce : Assigns (ε := DispatchError)
      (batch.forM fun s => modify fun a : AtWork => a.announce s.announcement)
      fun a => batch.foldl (fun a s => a.announce s.announcement) a :=
    assigns_forM (fun _ => assigns_modify _) batch
  intro a
  refine (Makes.checked (inspect_makes batch []) (hinsert.andThen hannounce) a).trans ?_
  simp only [AtWork.foldl_announce, Index.perform, Dispatch.enqueue]
  cases Dispatch.overLimit? a.dispatch.desk.index [] batch with
  | some found => rfl
  | none =>
    cases a.dispatch.desk.index.insert batch with
    | error cause => rfl
    | ok y => rfl

end Edit

/-! ## 3. Answers -/

namespace Dispatch

variable {d d' : Dispatch (Switched Tables)} {batch : List Submission}

/-- The answers to a batch.  The limits come first: if one of them is overstepped, it does not
matter what the index would have said. -/
structure IntakeAnswers (d : Dispatch (Switched Tables)) (batch : List Submission)
    (answer : Except DispatchError (Dispatch (Switched Tables))) : Prop where
  tooMany : (∃ key limit, answer = .error (.tooMany key limit)) ↔
    ∃ front s behind, batch = front ++ s :: behind ∧ Over d.desk.index.store.inner front s
  first : ∀ key limit, answer = .error (.tooMany key limit) ↔
    ∃ s, FirstOver d.desk.index.store.inner batch s ∧ s.job.factory = key ∧
      s.job.maxInstances = limit
  index : ∀ cause, answer = .error (.index cause) ↔
    AllWithin d.desk.index.store.inner batch ∧ d.desk.index.insert batch = .error cause
  stopped : ∀ command, answer ≠ .error (.closed command)
  ok : (∃ d', answer = .ok d') ↔
    AllWithin d.desk.index.store.inner batch ∧ ∃ y, d.desk.index.insert batch = .ok y

/-- What is left of a batch that was taken in: memory and store have its jobs and rows behind those
they had, and each job was announced once. -/
structure TakenIn (d : Dispatch (Switched Tables)) (batch : List Submission)
    (d' : Dispatch (Switched Tables)) : Prop where
  stored : d'.desk.index.store.inner = d.desk.index.store.inner.append batch
  jobs : d'.desk.index.roster.jobs = d.desk.index.roster.jobs ++ batch.map Submission.job
  guards : ∀ id, d'.desk.index.roster.guards.rowsOf id = d.desk.index.roster.guards.rowsOf id ++
    batch.flatMap fun s => if id = s.id then s.guards else []
  edges : ∀ id, d'.desk.index.roster.edges.rowsOf id = d.desk.index.roster.edges.rowsOf id ++
    batch.flatMap fun s => if id = s.id then s.edges else []
  announced : d'.desk.events = d.desk.events ++ batch.map Submission.announcement
  rest : d' = { d with
    desk := { d.desk with index := d'.desk.index, events := d'.desk.events } }

theorem takenIn_of_enqueue (h : d.enqueue batch = .ok d') : TakenIn d batch d' := by
  obtain ⟨y, hins, rfl⟩ := enqueue_eq_ok h
  obtain ⟨-, -, -, rfl⟩ := Index.insert_eq_ok_iff.mp hins
  exact
    { stored := rfl
      jobs := d.desk.index.roster.jobs_insert batch
      guards := fun id => by
        rw [Index.roster_holding, Roster.insert_eq]
        exact Filed.rowsOf_foldl_file_batch batch _
      edges := fun id => by
        rw [Index.roster_holding, Roster.insert_eq]
        exact Filed.rowsOf_foldl_file_batch batch _
      announced := rfl
      rest := rfl }

theorem enqueue_answers (hm : Matched d.desk.index.roster d.desk.index.store.inner)
    (batch : List Submission) : IntakeAnswers d batch (d.enqueue batch) := by
  have hcount := hm.countOf_eq
  have hnone : overLimit? d.desk.index [] batch = none ↔
      AllWithin d.desk.index.store.inner batch := overLimit?_eq_none_iff_allWithin hcount
  have hsome : ∀ key limit, overLimit? d.desk.index [] batch = some (key, limit) ↔
      ∃ s, FirstOver d.desk.index.store.inner batch s ∧ s.job.factory = key ∧
        s.job.maxInstances = limit := fun _ _ => overLimit?_eq_some_iff hcount
  have hsomewhere : ¬AllWithin d.desk.index.store.inner batch ↔
      ∃ front s behind, batch = front ++ s :: behind ∧ Over d.desk.index.store.inner front s := by
    simp only [AllWithin, not_forall, not_not, exists_prop]
  unfold Dispatch.enqueue
  cases hover : overLimit? d.desk.index [] batch with
  | some found =>
    have hnot : ¬AllWithin d.desk.index.store.inner batch := fun h => by
      rw [hnone.mpr h] at hover
      cases hover
    exact
      { tooMany := iff_of_true ⟨found.1, found.2, rfl⟩ (hsomewhere.mp hnot)
        first := fun key limit => by
          rw [← hsome, hover]
          simp [Prod.ext_iff]
        index := by simp [hnot]
        stopped := by simp
        ok := by simp [hnot] }
  | none =>
    have hall : AllWithin d.desk.index.store.inner batch := hnone.mp hover
    have hnowhere := fun h => hsomewhere.mpr h hall
    cases hins : d.desk.index.insert batch with
    | error cause =>
      exact
        { tooMany := iff_of_false (by simp) hnowhere
          first := fun key limit => by simp [← hsome, hover]
          index := by simp [hall, hins]
          stopped := by simp
          ok := by simp [hins] }
    | ok y =>
      exact
        { tooMany := iff_of_false (by simp) hnowhere
          first := fun key limit => by simp [← hsome, hover]
          index := by simp [hins]
          stopped := by simp
          ok := by simp [hall, hins] }

/-- **A batch is taken in as a whole or not at all**, after every run of the index, whatever its
store refuses.  It is turned down for the first of its jobs that goes beyond its limit, and only if
there is none for what the index finds wrong with it.  In place, a batch that is turned down has
left everything as it was and nobody has heard of it; one that is not has been announced job by job,
in order, and whoever heard of one job found all of them stored. -/
theorem enqueue_all_or_nothing (discipline : Discipline) (changes : List Change)
    (hd : d.desk.index = (Index.fresh discipline).run changes) (batch : List Submission) :
    IntakeAnswers d batch (d.enqueue batch) ∧
    (∀ d', d.enqueue batch = .ok d' → TakenIn d batch d') ∧
    (∀ heard, (Edit.takeIn batch).run ⟨d, heard⟩ = Edit.outcome ⟨d, heard⟩
      ((d.enqueue batch).map fun d' =>
        ⟨d', heard ++ batch.map fun s => (s.announcement, d'.desk.index)⟩)) ∧
    ∀ heard e a, (Edit.takeIn batch).run ⟨d, heard⟩ = .error e a → a = ⟨d, heard⟩ := by
  have hm : Matched d.desk.index.roster d.desk.index.store.inner := by
    rw [hd]
    exact matched_run discipline changes
  refine ⟨enqueue_answers hm batch, fun d' h => takenIn_of_enqueue h, fun heard => ?_,
    fun heard e a h => (Edit.takeIn_makes batch).eq_of_error h⟩
  exact Edit.takeIn_makes batch ⟨d, heard⟩

/-- A dispatcher that holds one job, and whose store refuses every write. -/
def refusingDispatch : Dispatch (Switched Tables) :=
  let index : MemoryIndex := (Index.fresh .runToCompletion).run
    [.insert [{ job := capped "stored" 1 }], .refuse true]
  { desk := { index } }

/-- A job of another kind, one that allows any number of its kind, and one that allows two and
brings an id that is taken. -/
def crowdedBatch : List Submission :=
  [{ job := { capped "other" 1 with factory := "mail" } }, { job := capped "free" unlimited },
    { job := capped "stored" 2 }]

/-- The third job is one too many beside the stored one and the second.  This is reported, and not
that the store refuses the batch.  Where writes go through, the first two are taken in, and both of
them are stored when they are announced. -/
theorem enqueue_crowdedBatch :
    (refusingDispatch.enqueue crowdedBatch = .error (.tooMany "http" 2) ∧
      refusingDispatch.desk.index.insert crowdedBatch = .error (.store (.refused .insert)) ∧
      (Edit.takeIn crowdedBatch).run ⟨refusingDispatch, []⟩
        = .error (.tooMany "http" 2) ⟨refusingDispatch, []⟩) ∧
    ∃ d, (Edit.takeIn (crowdedBatch.take 2)).run ⟨holdingJobs [capped "stored" 1], []⟩
        = .ok () ⟨d, [(.enqueued ⟨"other"⟩ "mail", d.desk.index),
          (.enqueued ⟨"free"⟩ "http", d.desk.index)]⟩ ∧
      d.desk.index.roster.jobs.map Job.id = [⟨"stored"⟩, ⟨"other"⟩, ⟨"free"⟩] := by
  obtain ⟨hanswers, -, hplace, -⟩ := enqueue_all_or_nothing (d := refusingDispatch)
    .runToCompletion [.insert [{ job := capped "stored" 1 }], .refuse true] rfl crowdedBatch
  obtain ⟨-, htaken, hplace', -⟩ := enqueue_all_or_nothing (d := holdingJobs [capped "stored" 1])
    .runToCompletion [.insert [{ job := capped "stored" 1 }]] rfl (crowdedBatch.take 2)
  have hover : Over refusingDispatch.desk.index.store.inner (crowdedBatch.take 2)
      { job := capped "stored" 2 } := by
    have hstored : refusingDispatch.desk.index.store.inner.countOf "http" = 1 := by cbv
    refine over_iff.mpr ?_
    show ¬(capped "stored" 2).allows (refusingDispatch.desk.index.store.inner.countOf "http" + 2)
    rw [hstored]
    decide
  have hfront : AllWithin refusingDispatch.desk.index.store.inner (crowdedBatch.take 2) :=
    (overLimit?_eq_none_iff_allWithin (matched_run _ _).countOf_eq).mp (by cbv)
  have hfirst : FirstOver refusingDispatch.desk.index.store.inner crowdedBatch
      { job := capped "stored" 2 } := ⟨crowdedBatch.take 2, [], rfl, hover, hfront⟩
  have hanswer : refusingDispatch.enqueue crowdedBatch = .error (.tooMany "http" 2) :=
    (hanswers.first _ _).mpr ⟨_, hfirst, rfl, rfl⟩
  refine ⟨⟨hanswer, by cbv, (hplace []).trans ?_⟩, ?_⟩
  · rw [hanswer]
    rfl
  have hok : ((holdingJobs [capped "stored" 1]).enqueue (crowdedBatch.take 2)).isOk = true := by cbv
  cases hd : (holdingJobs [capped "stored" 1]).enqueue (crowdedBatch.take 2) with
  | error e =>
    rw [hd] at hok
    cases hok
  | ok d =>
    refine ⟨d, (hplace' []).trans ?_, ?_⟩
    · rw [hd]
      rfl
    · rw [(htaken d hd).jobs]
      cbv

end Dispatch

end Backlog
