/-
# What an attempt leaves behind

A runner reports how a job ended, changes the index, announces events and calls failure hooks, and
these four have to tell the same story.

* `Cause`: the seven ways in which a job is given up, each with what is announced and whose hook is
  called;
* `GivenUp`: a job that is given up is gone, and so are those that fall with it; each is announced
  once and told once;
* `Runner.Agrees`: what each verdict says about the desk, and `Runner.execute_agrees`: **that it is
  so, whatever the job does and whether or not its outcome can be written.**

The clock goes on while a job runs, so an attempt has two moments (`Runner.executeBetween`).
-/
import Backlog.Proofs.Tabular
import Backlog.Runner
import Mathlib

namespace Backlog

variable {σ : Type}

/-! ## 1. Attempts -/

/-- The desk after an attempt and before its outcome is recorded; if none was made, as it was. -/
def Desk.attempted (d : Desk σ) (j : Job) : Option Behaviour → Desk σ
  | none => d
  | some b => (d.emit (.started j.id j.attempt)).jot (b.attempt.opening ++ b.attempt.closing)

@[simp] theorem Desk.index_attempted (d : Desk σ) (j : Job) (ran : Option Behaviour) :
    (d.attempted j ran).index = d.index := by
  cases ran with
  | none => rfl
  | some b => rfl

namespace Runner

/-- An attempt is made: the job has not expired, and this is what it is decoded to. -/
def Attempts (r : Runner) (began : Moment) (j : Job) (b : Behaviour) : Prop :=
  j.isExpired began.now = false ∧ r.registry.decode j = .ok b

/-- No failure hook breaks off. -/
def Calm (r : Runner) : Prop :=
  ∀ j b, r.registry.decode j = .ok b →
    b.fresh.onFailure.panics = false ∧ b.spent.onFailure.panics = false

/-- The hooks of a job that is decoded for no other reason than to call them. -/
def freshHooks (r : Runner) (j : Job) : Option Hooks :=
  (r.registry.decode j).toOption.map Behaviour.fresh

variable [Storage σ]

/-- `Runner.execute` with a clock that goes on: the run begins at one moment and its outcome is
recorded at another. -/
def executeBetween (r : Runner) (began ended : Moment) (j : Job) (d : Desk σ) : Verdict × Desk σ :=
  match r.start began j d with
  | (.inl verdict, d) => (verdict, d)
  | (.inr b, d) => r.conclude ended j b (d.jot (b.attempt.opening ++ b.attempt.closing))

theorem execute_eq_executeBetween (r : Runner) (m : Moment) (j : Job) (d : Desk σ) :
    r.execute m j d = r.executeBetween m m j d := rfl

/-- The jobs that fall with `j`. -/
def fallen (r : Runner) (x : Index σ) (j : Job) : List Job :=
  if r.cascade then casualties x j.id else []

end Runner

/-- Why `j` is given up: whether that is fatal, the reason that is announced, the hooks that are
called, and the attempt that was made, if there was one. -/
inductive Cause (r : Runner) (began : Moment) (j : Job) :
    Bool → String → Option Hooks → Option Behaviour → Prop
  | expired :
    j.isExpired began.now = true → Cause r began j false "lifespan expired" (r.freshHooks j) none
  | undecodable {e : WorkError} : j.isExpired began.now = false → r.registry.decode j = .error e →
    Cause r began j true e.message none none
  | exhausted {b : Behaviour} : r.Attempts began j b → b.outcome = some .retry →
    j.isSpent (succClamped j.attempt) = true →
    Cause r began j false "attempts exhausted" (some b.spent) (some b)
  | unsaved {b : Behaviour} {e : WorkError} : r.Attempts began j b → b.outcome = some .retry →
    j.isSpent (succClamped j.attempt) = false → b.spent.saved = .error e →
    Cause r began j true e.message (some b.spent) (some b)
  | failed {b : Behaviour} : r.Attempts began j b → b.outcome = some .failure →
    Cause r began j false "job failed" (some b.spent) (some b)
  | defective {b : Behaviour} : r.Attempts began j b → b.outcome = some .fatalFailure →
    Cause r began j true "job hit a defect" (some b.spent) (some b)
  | panicked {b : Behaviour} : r.Attempts began j b → b.outcome = none →
    Cause r began j true "job panicked" (some b.fresh) (some b)

/-! ## 2. Who is told -/

/-- What a failure hook notes when it is called, if there is one to call. -/
def hookNotes (told : Option Hooks) : List Note := told.toList.flatMap fun h => h.onFailure.notes

/-- `j` was given up: it is gone and so is whoever falls with it, each is announced once, and each
that can be decoded is told once. -/
structure GivenUp [Storage σ] [Tabular σ] (r : Runner) (j : Job) (fatal : Bool) (reason : String)
    (told : Option Hooks) (d d' : Desk σ) : Prop where
  index : Dropped d.index d'.index (j.id :: (r.fallen d.index j).map Job.id)
  events : d'.events = d.events ++
    .failed j.id fatal reason :: (r.fallen d.index j).map fun k => .cancelled k.id j.id
  notes : d'.notes = d.notes ++ hookNotes told ++
    (r.fallen d.index j).flatMap fun k => hookNotes (r.freshHooks k)

namespace Runner

theorem Calm.freshHooks {r : Runner} (hr : r.Calm) {j : Job} {h : Hooks}
    (hh : r.freshHooks j = some h) : h.onFailure.panics = false := by
  unfold Runner.freshHooks at hh
  cases hb : r.registry.decode j with
  | error e => simp [hb, Except.toOption] at hh
  | ok b =>
    simp only [hb, Except.toOption, Option.map_some, Option.some.injEq] at hh
    exact hh ▸ (hr j b hb).1

/-- One job is told, and the next ones if its hook returns. -/
theorem cancelAll_cons (r : Runner) (failed : JobId) (k : Job) (rest : List Job) (d : Desk σ) :
    r.cancelAll failed (k :: rest) d =
      if (r.freshHooks k).any (·.onFailure.panics) then (d.jot (hookNotes (r.freshHooks k)), false)
      else r.cancelAll failed rest
        ((d.jot (hookNotes (r.freshHooks k))).emit (.cancelled k.id failed)) := by
  cases hk : r.registry.decode k with
  | error e => simp [cancelAll, hk, freshHooks, Except.toOption, hookNotes, Desk.jot]
  | ok b =>
    cases hp : b.fresh.onFailure.panics with
    | true => simp [cancelAll, hk, freshHooks, Except.toOption, hookNotes, Desk.callHook, hp]
    | false => simp [cancelAll, hk, freshHooks, Except.toOption, hookNotes, Desk.callHook, hp]

/-- Where no hook breaks off, everybody is told. -/
theorem cancelAll_eq {r : Runner} (hr : r.Calm) (failed : JobId) :
    ∀ (fallen : List Job) (d : Desk σ), r.cancelAll failed fallen d =
      ({ d with
        events := d.events ++ fallen.map fun k => .cancelled k.id failed
        notes := d.notes ++ fallen.flatMap fun k => hookNotes (r.freshHooks k) }, true)
  | [], d => by simp [cancelAll]
  | k :: rest, d => by
    have hcalm : (r.freshHooks k).any (·.onFailure.panics) = false := by
      cases hh : r.freshHooks k with
      | none => rfl
      | some h => exact hr.freshHooks hh
    rw [cancelAll_cons, hcalm, if_neg Bool.false_ne_true, cancelAll_eq hr failed rest]
    simp [Desk.emit, Desk.jot]

/-- Whether or not a hook breaks off, those who are announced and those who are told come first
among the jobs that fall; if none does, they are all of them. -/
theorem cancelAll_prefix (r : Runner) (failed : JobId) : ∀ (fallen : List Job) (d : Desk σ),
    ∃ announced heard, announced <+: fallen.map (fun k => Event.cancelled k.id failed) ∧
      heard <+: fallen ∧ (r.cancelAll failed fallen d).1 =
        { d with
          events := d.events ++ announced
          notes := d.notes ++ heard.flatMap fun k => hookNotes (r.freshHooks k) } ∧
      ((r.cancelAll failed fallen d).2 = true →
        announced = fallen.map (fun k => .cancelled k.id failed) ∧ heard = fallen)
  | [], d => ⟨[], [], List.nil_prefix, List.nil_prefix, by simp [cancelAll], by simp⟩
  | k :: rest, d => by
    rw [cancelAll_cons]
    split
    · exact ⟨[], [k], List.nil_prefix, List.cons_prefix_cons.mpr ⟨rfl, List.nil_prefix⟩,
        by simp [Desk.jot], by simp⟩
    · obtain ⟨announced, heard, hannounced, hheard, heq, hall⟩ := cancelAll_prefix r failed rest
        ((d.jot (hookNotes (r.freshHooks k))).emit (.cancelled k.id failed))
      refine ⟨.cancelled k.id failed :: announced, k :: heard,
        List.cons_prefix_cons.mpr ⟨rfl, hannounced⟩, List.cons_prefix_cons.mpr ⟨rfl, hheard⟩, ?_,
        fun hreturned => ?_⟩
      · rw [heq]
        simp [Desk.emit, Desk.jot]
      · obtain ⟨rfl, rfl⟩ := hall hreturned
        exact ⟨rfl, rfl⟩

variable [Storage σ]

/-- What becomes of a job that is to be dropped for good, whether or not a hook breaks off. -/
inductive Downfall (r : Runner) (j : Job) (live : Option Hooks) (fatal : Bool) (reason : String)
    (outcome : Outcome) (d : Desk σ) : Verdict → Desk σ → Prop
  /-- It could not be deleted, and nothing happened. -/
  | refused {cause : IndexError} :
    d.index.delete (j.id :: (r.fallen d.index j).map Job.id) = .error cause →
    Downfall r j live fatal reason outcome d (.refused cause) d
  /-- It is gone with all that falls with it.  If everybody returns, all are announced and told. -/
  | dropped {v : Verdict} {index : Index σ} {announced : List Event} {heard : List Job} :
    d.index.delete (j.id :: (r.fallen d.index j).map Job.id) = .ok index →
    (v = .done outcome ∧ announced = .failed j.id fatal reason ::
      (r.fallen d.index j).map (fun k => .cancelled k.id j.id) ∧ heard = r.fallen d.index j) ∨
        v = .panicked →
    announced <+: .failed j.id fatal reason ::
      (r.fallen d.index j).map (fun k => .cancelled k.id j.id) →
    heard <+: r.fallen d.index j →
    Downfall r j live fatal reason outcome d v
      { index
        events := d.events ++ announced
        notes := d.notes ++ hookNotes (live.or (r.freshHooks j)) ++
          heard.flatMap fun k => hookNotes (r.freshHooks k) }

theorem fail_downfall (r : Runner) (j : Job) (live : Option Hooks) (fatal : Bool) (reason : String)
    (outcome : Outcome) (d : Desk σ) :
    r.Downfall j live fatal reason outcome d (r.fail j live fatal reason outcome d).1
      (r.fail j live fatal reason outcome d).2 := by
  have hfallen : (if r.cascade then casualties d.index j.id else []) = r.fallen d.index j := rfl
  have hfresh : (r.registry.decode j).toOption.map Behaviour.fresh = r.freshHooks j := rfl
  simp only [fail, hfallen, hfresh]
  cases hdel : d.index.delete (j.id :: (r.fallen d.index j).map Job.id) with
  | error cause => exact .refused hdel
  | ok index =>
    have hcancelled : ∀ e : Desk σ, e.index = index → e.events = d.events →
        e.notes = d.notes ++ hookNotes (live.or (r.freshHooks j)) →
        r.Downfall j live fatal reason outcome d
          (if (r.cancelAll j.id (r.fallen d.index j) (e.emit (.failed j.id fatal reason))).2
            then .done outcome else .panicked)
          (r.cancelAll j.id (r.fallen d.index j) (e.emit (.failed j.id fatal reason))).1 := by
      intro e hindex hevents hnotes
      obtain ⟨announced, heard, hannounced, hheard, heq, hall⟩ :=
        cancelAll_prefix r j.id (r.fallen d.index j) (e.emit (.failed j.id fatal reason))
      have hfirst : Event.failed j.id fatal reason :: announced <+: .failed j.id fatal reason ::
          (r.fallen d.index j).map (fun k => .cancelled k.id j.id) :=
        List.cons_prefix_cons.mpr ⟨rfl, hannounced⟩
      generalize r.cancelAll j.id (r.fallen d.index j) (e.emit (.failed j.id fatal reason)) = left
        at heq hall ⊢
      obtain ⟨d', returned⟩ := left
      have hd' : d' =
          { index
            events := d.events ++ .failed j.id fatal reason :: announced
            notes := d.notes ++ hookNotes (live.or (r.freshHooks j)) ++
              heard.flatMap fun k => hookNotes (r.freshHooks k) } :=
        heq.trans (by simp [Desk.emit, hindex, hevents, hnotes])
      rw [hd']
      cases returned with
      | true =>
        obtain ⟨rfl, rfl⟩ := hall rfl
        exact .dropped hdel (.inl ⟨rfl, rfl, rfl⟩) hfirst hheard
      | false => exact .dropped hdel (.inr rfl) hfirst hheard
    cases hh : live.or (r.freshHooks j) with
    | none => exact hcancelled _ rfl rfl (by simp [hh, hookNotes])
    | some h =>
      cases hp : h.onFailure.panics with
      | true =>
        have hdown : r.Downfall j live fatal reason outcome d .panicked _ :=
          .dropped hdel (.inr rfl) List.nil_prefix List.nil_prefix
        simpa [Desk.callHook, Desk.jot, hp, hh, hookNotes] using hdown
      | false =>
        simp only [Desk.callHook, hp]
        exact hcancelled _ rfl rfl (by simp [hh, hookNotes, Desk.jot])

/-- Only the index turns it down. -/
theorem Downfall.delete_error {r : Runner} {j : Job} {live : Option Hooks} {fatal : Bool}
    {reason : String} {outcome : Outcome} {d d' : Desk σ} {cause : IndexError}
    (h : r.Downfall j live fatal reason outcome d (.refused cause) d') :
    d.index.delete (j.id :: (r.fallen d.index j).map Job.id) = .error cause := by
  cases h with
  | refused hdel => exact hdel
  | dropped _ hv => simp at hv

variable [Tabular σ]

/-- A job is dropped for good, or it cannot be: then nothing happens at all. -/
theorem fail_eq {r : Runner} (hr : r.Calm) (j : Job) (live : Option Hooks) (fatal : Bool)
    (reason : String) (outcome : Outcome) (d : Desk σ)
    (hlive : ∀ h, live = some h → h.onFailure.panics = false) :
    (∃ e, r.fail j live fatal reason outcome d = (.refused (.store e), d)) ∨
      ∃ d', r.fail j live fatal reason outcome d = (.done outcome, d') ∧
        GivenUp r j fatal reason (live.or (r.freshHooks j)) d d' := by
  have hfallen : (if r.cascade then casualties d.index j.id else []) = r.fallen d.index j := rfl
  have hfresh : (r.registry.decode j).toOption.map Behaviour.fresh = r.freshHooks j := rfl
  cases hdel : d.index.delete (j.id :: (r.fallen d.index j).map Job.id) with
  | error cause =>
    obtain ⟨e, rfl⟩ := Index.writeThrough_error hdel
    exact .inl ⟨e, by simp only [fail, hfallen, hdel]⟩
  | ok index =>
    have htold : ∀ h, live.or (r.freshHooks j) = some h → h.onFailure.panics = false := by
      intro h hh
      rcases Option.or_eq_some_iff.mp hh with hl | ⟨-, hf⟩
      · exact hlive h hl
      · exact hr.freshHooks hf
    refine .inr ⟨{ index
                   events := d.events ++ .failed j.id fatal reason ::
                     (r.fallen d.index j).map fun k => .cancelled k.id j.id
                   notes := d.notes ++ (hookNotes (live.or (r.freshHooks j))) ++
                     (r.fallen d.index j).flatMap fun k => hookNotes (r.freshHooks k) }, ?_,
      Index.delete_dropped hdel, rfl, rfl⟩
    simp only [fail, hfallen, hfresh, hdel]
    cases hh : live.or (r.freshHooks j) with
    | none => simp [cancelAll_eq hr, Desk.emit, hookNotes]
    | some h => simp [cancelAll_eq hr, Desk.emit, Desk.callHook, Desk.jot, hookNotes, htold h hh]

/-! ## 3. What each verdict says -/

/-- The outcome of a job that is given up. -/
def givenUp (fatal : Bool) : Outcome := if fatal then .fatalFailure else .failure

/-- What a verdict says about the desk `d'` that is left of `d`. -/
inductive Agrees (r : Runner) (began ended : Moment) (j : Job) (d : Desk σ) :
    Verdict → Desk σ → Prop
  /-- A refused write has left the index as it was, and nothing was announced but that the attempt
  was made. -/
  | refused {e : StoreError} {ran : Option Behaviour} {d' : Desk σ} :
    (∀ b, ran = some b → r.Attempts began j b) → d' = d.attempted j ran → d'.index = d.index →
    Agrees r began ended j d (.refused (.store e)) d'
  /-- A success has dropped the job alone. -/
  | succeeded {b : Behaviour} {d' : Desk σ} :
    r.Attempts began j b → b.outcome = some .success →
    Dropped d.index d'.index [j.id] →
    d'.events = d.events ++ [.started j.id j.attempt, .succeeded j.id] →
    d'.notes = d.notes ++ (b.attempt.opening ++ b.attempt.closing) →
    Agrees r began ended j d (.done .success) d'
  /-- A retry has changed the record of the job and nothing else. -/
  | retried {b : Behaviour} {saved : Option ByteArray} {due : Int64} {d' : Desk σ} :
    r.Attempts began j b → b.outcome = some .retry → j.isSpent (succClamped j.attempt) = false →
    b.spent.saved = .ok saved →
    due = (b.spent.backoff.getD r.defaultBackoff).nextDue ended.now (succClamped j.attempt)
      j.maxBackoff ended.draw →
    Recorded d.index d'.index
      { j with running := false, attempt := succClamped j.attempt, due,
               payload := saved.getD j.payload } →
    d'.events = d.events ++ [.started j.id j.attempt,
      .retrying j.id (succClamped j.attempt) j.maxAttempts due] →
    d'.notes = d.notes ++ (b.attempt.opening ++ b.attempt.closing) →
    Agrees r began ended j d (.done .retry) d'
  /-- A failure has dropped the job with all that falls with it. -/
  | failed {fatal : Bool} {reason : String} {told : Option Hooks} {ran : Option Behaviour}
    {d' : Desk σ} :
    Cause r began j fatal reason told ran →
    GivenUp r j fatal reason told (d.attempted j ran) d' →
    Agrees r began ended j d (.done (givenUp fatal)) d'

variable {r : Runner} {began ended : Moment} {j : Job} {d : Desk σ}

theorem Cause.attempts {fatal : Bool} {reason : String} {told : Option Hooks}
    {ran : Option Behaviour} (h : Cause r began j fatal reason told ran) :
    ∀ b, ran = some b → r.Attempts began j b := by
  cases h with
  | expired | undecodable => simp
  | exhausted h | unsaved h | failed h | defective h | panicked h => simpa using h

/-- Whatever the cause, a job that is given up is given up as `GivenUp` says, or not at all. -/
theorem fail_agrees (hr : r.Calm) {fatal : Bool} {reason : String} (live : Option Hooks)
    {ran : Option Behaviour} (hcause : Cause r began j fatal reason (live.or (r.freshHooks j)) ran)
    (hlive : ∀ h, live = some h → h.onFailure.panics = false) {v : Verdict} {d' : Desk σ}
    (hv : r.fail j live fatal reason (givenUp fatal) (d.attempted j ran) = (v, d')) :
    r.Agrees began ended j d v d' := by
  rcases fail_eq hr j live fatal reason (givenUp fatal) (d.attempted j ran) hlive with
    ⟨e, he⟩ | ⟨d₁, he, hgiven⟩
  · obtain ⟨rfl, rfl⟩ := Prod.mk.inj (he.symm.trans hv)
    exact .refused (Cause.attempts hcause) rfl (d.index_attempted j ran)
  · obtain ⟨rfl, rfl⟩ := Prod.mk.inj (he.symm.trans hv)
    exact .failed hcause hgiven

theorem retry_agrees (hr : r.Calm) (hm : Matched d.index.roster d.index.stored)
    (hj : j ∈ d.index.roster.jobs) {b : Behaviour} (hb : r.Attempts began j b)
    (ho : b.outcome = some .retry) {v : Verdict} {d' : Desk σ}
    (hv : r.retry ended j b.spent (d.attempted j (some b)) = (v, d')) :
    r.Agrees began ended j d v d' := by
  have hcalm : ∀ h, some b.spent = some h → h.onFailure.panics = false := by
    simpa using (hr j b hb.2).2
  unfold retry at hv
  cases hspent : j.isSpent (succClamped j.attempt) with
  | true =>
    simp only [hspent, if_true] at hv
    exact fail_agrees hr (some b.spent) (.exhausted hb ho hspent) hcalm hv
  | false =>
    cases hsaved : b.spent.saved with
    | error e =>
      simp only [hspent, Bool.false_eq_true, if_false, hsaved] at hv
      exact fail_agrees hr (some b.spent) (.unsaved hb ho hspent hsaved) hcalm hv
    | ok saved =>
      simp only [hspent, Bool.false_eq_true, if_false, hsaved, Desk.index_attempted] at hv
      split at hv
      · rename_i cause hres
        obtain ⟨e, rfl⟩ := Index.reschedule_error (hm.get?_eq_some_iff.mpr ⟨hj, rfl⟩) hres
        obtain ⟨rfl, rfl⟩ := Prod.mk.inj hv
        exact .refused (by simpa using hb) rfl rfl
      · rename_i index hres
        obtain ⟨rfl, rfl⟩ := Prod.mk.inj hv
        refine .retried hb ho hspent hsaved rfl (Index.reschedule_recorded hm hj hres) ?_ rfl
        simp [Desk.emit, Desk.attempted, Desk.jot]

theorem conclude_agrees (hr : r.Calm) (hm : Matched d.index.roster d.index.stored)
    (hj : j ∈ d.index.roster.jobs) {b : Behaviour} (hb : r.Attempts began j b) {v : Verdict}
    {d' : Desk σ} (hv : r.conclude ended j b (d.attempted j (some b)) = (v, d')) :
    r.Agrees began ended j d v d' := by
  have hcalm : ∀ h, some b.spent = some h → h.onFailure.panics = false := by
    simpa using (hr j b hb.2).2
  unfold conclude at hv
  cases ho : b.outcome with
  | none =>
    simp only [ho] at hv
    have hcause : Cause r began j true "job panicked" (r.freshHooks j) (some b) := by
      rw [freshHooks, hb.2]
      exact .panicked hb ho
    exact fail_agrees hr none hcause (by simp) hv
  | some o =>
    cases o with
    | success =>
      simp only [ho, Desk.index_attempted] at hv
      split at hv
      · rename_i cause hdel
        obtain ⟨e, rfl⟩ := Index.writeThrough_error hdel
        obtain ⟨rfl, rfl⟩ := Prod.mk.inj hv
        exact .refused (by simpa using hb) rfl rfl
      · rename_i index hdel
        obtain ⟨rfl, rfl⟩ := Prod.mk.inj hv
        refine .succeeded hb ho (Index.delete_dropped hdel) ?_ rfl
        simp [Desk.emit, Desk.attempted, Desk.jot]
    | retry =>
      simp only [ho] at hv
      exact retry_agrees hr hm hj hb ho hv
    | failure =>
      simp only [ho] at hv
      exact fail_agrees hr (some b.spent) (.failed hb ho) hcalm hv
    | fatalFailure =>
      simp only [ho] at hv
      exact fail_agrees hr (some b.spent) (.defective hb ho) hcalm hv

/-- **Verdict, index, events and notes agree**, for every job that is stored, whatever it does when
it runs, and whether or not the store takes the outcome.  There is no verdict but a refused write,
a success, a retry and a failure.  That roster and tables hold the same jobs is so after every run
(`matched_run`) and after opening a store (`Index.matched_of_open`). -/
theorem execute_agrees (hr : r.Calm) (hm : Matched d.index.roster d.index.stored)
    (hj : j ∈ d.index.roster.jobs) (began ended : Moment) :
    r.Agrees began ended j d (r.executeBetween began ended j d).1
      (r.executeBetween began ended j d).2 := by
  generalize hv : r.executeBetween began ended j d = left
  obtain ⟨v, d'⟩ := left
  unfold executeBetween start at hv
  cases hexp : j.isExpired began.now with
  | true =>
    simp only [hexp, if_true] at hv
    exact fail_agrees hr none (.expired hexp) (by simp) hv
  | false =>
    simp only [hexp, Bool.false_eq_true, if_false] at hv
    cases hdec : r.registry.decode j with
    | error e =>
      simp only [hdec] at hv
      have hcause : Cause r began j true e.message (r.freshHooks j) none := by
        rw [freshHooks, hdec]
        exact .undecodable hexp hdec
      exact fail_agrees hr none hcause (by simp) hv
    | ok b =>
      simp only [hdec] at hv
      exact conclude_agrees hr hm hj ⟨hexp, hdec⟩ hv

/-- A runner whose jobs always ask for another attempt. -/
def insistent : Runner :=
  let decoder : Decoder := fun _ _ => .ok
    { attempt := { ending := .raised (.transient "down") }
      fresh := { saved := .ok (some "again".toUTF8), backoff := some (.fixed 5) } }
  { registry := { decoders := [("http", decoder)] } }

theorem insistent_calm : insistent.Calm := by
  intro j b hb
  simp only [insistent, Registry.decode, List.lookup_cons, List.lookup_nil] at hb
  split at hb
  · rename_i d hd
    split at hd
    · obtain rfl := Option.some.inj hd
      obtain rfl := Except.ok.inj hb
      exact ⟨rfl, rfl⟩
    · exact absurd hd (by simp)
  · exact absurd hb (by simp)

/-- A job with attempts to spare, and an index where it has been handed out. -/
def handedOut : Job :=
  { id := ⟨"fetch"⟩, factory := "http", created := 1, maxAttempts := 3, running := true }

def handedOutDesk : Desk (Switched Tables) :=
  { index := (Index.fresh .runToCompletion).run
      [.insert [{ job := { handedOut with running := false } }], .setRunning handedOut.id true] }

theorem execute_handedOut :
    insistent.Calm ∧ Matched handedOutDesk.index.roster handedOutDesk.index.stored ∧
      handedOut ∈ handedOutDesk.index.roster.jobs ∧
      insistent.Agrees { now := 7 } { now := 9 } handedOut handedOutDesk (.done .retry)
        (insistent.executeBetween { now := 7 } { now := 9 } handedOut handedOutDesk).2 := by
  have hm : Matched handedOutDesk.index.roster handedOutDesk.index.stored := matched_run _ _
  have hjobs : handedOutDesk.index.roster.jobs = [handedOut] := by cbv
  have hj : handedOut ∈ handedOutDesk.index.roster.jobs := hjobs ▸ List.mem_singleton.mpr rfl
  have hverdict : (insistent.executeBetween { now := 7 } { now := 9 } handedOut handedOutDesk).1
      = .done .retry := rfl
  exact ⟨insistent_calm, hm, hj, hverdict ▸ execute_agrees insistent_calm hm hj _ _⟩

end Runner

end Backlog
