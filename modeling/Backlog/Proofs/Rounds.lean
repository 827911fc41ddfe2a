/-
# Attempts until a job is gone

A job that is handed out again and again is attempted until it is dropped.  How often that may be is
in its record: an attempt that asks for another one is counted there, and once the count reaches the
limit the job is given up instead.

* `Round`, `Desk.take`, `Desk.takes`: a job is marked, its record is read and one attempt of it is
  made, and so on;
* `Take.Over`, `Take.Postponed`: the two ways in which a round may leave the job
  (`Desk.take_cases`).  Where every write is taken, no verdict is a refusal
  (`Runner.executeBetween_ne_refused`), and a job that is given up fails unless one of the hooks that
  are called then breaks off (`Runner.fail_fst`);
* `Course`: whole courses of rounds (`Desk.course_takes`).  All that follows is by induction on
  these;
* `Job.allowance`: how many attempts are left to a job.  A round that postpones the job takes one
  away (`Take.Postponed.allowance`);
* `Desk.attempts_bounded`: **no job is attempted more often than that, and one that never gives up
  exactly so often.**
-/
import Backlog.Proofs.Dispatch.Steps

namespace Backlog

/-! ## 1. Rounds -/

/-- Who attempts a job, and when: the run begins at one moment and its outcome is recorded at
another. -/
structure Round where
  runner : Runner
  began : Moment
  ended : Moment

/-- The attempt that is made of a job, if it has not expired and can be decoded. -/
def Runner.attempt? (r : Runner) (began : Moment) (j : Job) : Option Behaviour :=
  if j.isExpired began.now then none else (r.registry.decode j).toOption

/-- What was taken in a round: the desk once the job was marked, the record that was read there, the
verdict, and the desk that is left. -/
structure Take where
  round : Round
  desk : Desk (Switched Tables)
  job : Job
  verdict : Verdict
  left : Desk (Switched Tables)

/-- The attempt that was made, if there was one (`Runner.executeBetween_of_some`). -/
def Take.ran (t : Take) : Option Behaviour := t.round.runner.attempt? t.round.began t.job

namespace Desk

/-- One round: the job is marked as running, and an attempt is made of it as it is stored then. -/
def take (d : Desk (Switched Tables)) (id : JobId) (round : Round) : Option Take :=
  match d.index.setRunning id true with
  | .error _ => none
  | .ok index =>
    let desk := { d with index }
    (index.roster.get? id).map fun j =>
      let done := round.runner.executeBetween round.began round.ended j desk
      { round, desk, job := j, verdict := done.1, left := done.2 }

/-- One round after the other.  A job that is not there is passed over. -/
def takes (d : Desk (Switched Tables)) (id : JobId) : List Round → List Take
  | [] => []
  | round :: rest =>
    match d.take id round with
    | none => d.takes id rest
    | some t => t :: t.left.takes id rest

end Desk

/-! ## 2. When an outcome is refused -/

namespace Runner

section

variable {σ : Type} [Storage σ] {r : Runner} {m began ended : Moment} {j : Job} {b : Behaviour}
  {d : Desk σ} {cause : IndexError}

theorem attempt?_eq_some_iff : r.attempt? began j = some b ↔ r.Attempts began j b := by
  unfold attempt? Attempts
  cases j.isExpired began.now <;> cases r.registry.decode j <;> simp [Except.toOption]

/-- A job that is not attempted is given up. -/
theorem executeBetween_of_none (ended : Moment) (d : Desk σ) (h : r.attempt? began j = none) :
    ∃ fatal reason outcome, Outcome.isFailure outcome = true ∧
      r.executeBetween began ended j d = r.fail j none fatal reason outcome d := by
  unfold attempt? at h
  unfold executeBetween start
  cases hexp : j.isExpired began.now with
  | true => exact ⟨_, _, _, rfl, rfl⟩
  | false =>
    cases hdec : r.registry.decode j with
    | error e => exact ⟨_, _, _, rfl, rfl⟩
    | ok b => simp [hexp, hdec, Except.toOption] at h

theorem executeBetween_of_some (h : r.attempt? began j = some b) :
    r.executeBetween began ended j d = r.conclude ended j b (d.attempted j (some b)) := by
  obtain ⟨hexp, hdec⟩ := attempt?_eq_some_iff.mp h
  simp only [executeBetween, start, hexp, Bool.false_eq_true, if_false, hdec]
  rfl

theorem fail_refused {live : Option Hooks} {fatal : Bool} {reason : String} {outcome : Outcome}
    (h : (r.fail j live fatal reason outcome d).1 = .refused cause) :
    ∃ ids, d.index.delete ids = .error cause := by
  have hdown := fail_downfall r j live fatal reason outcome d
  rw [h] at hdown
  exact ⟨_, hdown.delete_error⟩

/-- The index refused to drop jobs, or to put this one off. -/
theorem conclude_refused (h : (r.conclude m j b d).1 = .refused cause) :
    (∃ ids, d.index.delete ids = .error cause) ∨
      ∃ attempt due payload, d.index.reschedule j.id false attempt due payload = .error cause := by
  unfold conclude at h
  cases ho : b.outcome with
  | none => exact .inl (fail_refused (by simpa only [ho] using h))
  | some o =>
    cases o with
    | failure | fatalFailure => exact .inl (fail_refused (by simpa only [ho] using h))
    | success =>
      simp only [ho] at h
      split at h
      · rename_i cause' hdel
        obtain rfl : cause' = cause := by simpa using h
        exact .inl ⟨_, hdel⟩
      · simp at h
    | retry =>
      simp only [ho, retry] at h
      split at h
      · exact .inl (fail_refused h)
      · split at h
        · exact .inl (fail_refused h)
        · split at h
          · rename_i cause' hres
            obtain rfl : cause' = cause := by simpa using h
            exact .inr ⟨_, _, _, hres⟩
          · simp at h

omit [Storage σ] in
theorem freshHooks_any_iff {p : Hooks → Bool} :
    (r.freshHooks j).any p = true ↔ ∃ b, r.registry.decode j = .ok b ∧ p b.fresh = true := by
  unfold freshHooks
  cases r.registry.decode j <;> simp [Except.toOption]

omit [Storage σ] in
theorem cancelAll_snd (r : Runner) (failed : JobId) : ∀ (fallen : List Job) (d : Desk σ),
    (r.cancelAll failed fallen d).2 =
      !fallen.any fun k => (r.freshHooks k).any (·.onFailure.panics)
  | [], d => rfl
  | k :: rest, d => by
    rw [cancelAll_cons, List.any_cons]
    split
    · rename_i hk
      rw [hk]
      rfl
    · rename_i hk
      rw [cancelAll_snd r failed rest, Bool.eq_false_iff.mpr hk, Bool.false_or]

/-- A job that is given up and at hand: the verdict stands unless its hook breaks off, or that of a
job that falls with it. -/
theorem fail_fst {index : Index σ} (h : Hooks) (fatal : Bool) (reason : String) (outcome : Outcome)
    (hdel : d.index.delete (j.id :: (r.fallen d.index j).map Job.id) = .ok index) :
    (r.fail j (some h) fatal reason outcome d).1 =
      if h.onFailure.panics || (r.fallen d.index j).any fun k =>
        (r.freshHooks k).any (·.onFailure.panics) then .panicked else .done outcome := by
  have hfallen : (if r.cascade then casualties d.index j.id else []) = r.fallen d.index j := rfl
  simp only [fail, hfallen, hdel, Option.some_or, Desk.callHook]
  cases h.onFailure.panics with
  | true => rfl
  | false =>
    simp only [Bool.not_false, if_true, cancelAll_snd, Bool.false_or]
    cases (r.fallen d.index j).any fun k => (r.freshHooks k).any (·.onFailure.panics) <;> rfl

/-- A job that asks for another attempt and has none left is given up. -/
theorem conclude_of_spent (ho : b.outcome = some .retry)
    (hspent : j.isSpent (succClamped j.attempt) = true) :
    r.conclude m j b d = r.fail j (some b.spent) false "attempts exhausted" .failure d := by
  simp [conclude, ho, retry, hspent]

/-- One that has some left and can be saved is put off, if the index takes it. -/
theorem conclude_of_unspent (ho : b.outcome = some .retry)
    (hspent : j.isSpent (succClamped j.attempt) = false) {saved : Option ByteArray}
    (hsaved : b.spent.saved = .ok saved)
    (hacc : ∀ attempt due payload, ∃ y,
      d.index.reschedule j.id false attempt due payload = .ok y) :
    (r.conclude m j b d).1 = .done .retry := by
  obtain ⟨y, hy⟩ := hacc (succClamped j.attempt) (r.nextDue m j b.spent) (saved.getD j.payload)
  simp only [conclude, ho, retry, hspent, Bool.false_eq_true, if_false, hsaved]
  rw [nextDue] at hy
  rw [hy]

end

/-! ## 3. An index that takes every write -/

variable {j : Job} {d : Desk (Switched Tables)}

/-- The index takes every deletion, and lets this job be put off. -/
structure Accepting (x : MemoryIndex) (j : Job) : Prop where
  delete : ∀ ids, ∃ y, x.delete ids = .ok y
  reschedule : ∀ attempt due payload, ∃ y, x.reschedule j.id false attempt due payload = .ok y

theorem accepting {x : MemoryIndex} (hm : Matched x.roster x.stored)
    (hon : x.store.refusing = false) (hj : j ∈ x.roster.jobs) : Accepting x j where
  delete ids := ⟨_, Index.delete_eq_ok_iff.mpr ⟨hon, rfl⟩⟩
  reschedule attempt due payload := by
    obtain ⟨hroster, htables⟩ := hm.contains (List.mem_map.mpr ⟨j, hj, rfl⟩)
    exact ⟨_, Index.reschedule_eq_ok_iff.mpr ⟨hroster, hon, htables, rfl⟩⟩

theorem executeBetween_ne_refused (r : Runner) (began ended : Moment) (ha : Accepting d.index j)
    (cause : IndexError) :
    (r.executeBetween began ended j d).1 ≠ .refused cause := by
  intro h
  cases hran : r.attempt? began j with
  | none =>
    obtain ⟨fatal, reason, outcome, -, heq⟩ :=
      executeBetween_of_none ended d hran
    obtain ⟨ids, hdel⟩ := fail_refused (heq ▸ h)
    obtain ⟨y, hy⟩ := ha.delete ids
    cases hy.symm.trans hdel
  | some b =>
    rw [executeBetween_of_some hran] at h
    rcases conclude_refused h with ⟨ids, hdel⟩ | ⟨attempt, due, payload, hres⟩
    · obtain ⟨y, hy⟩ := ha.delete ids
      cases hy.symm.trans hdel
    · obtain ⟨y, hy⟩ := ha.reschedule attempt due payload
      cases hy.symm.trans hres

end Runner

/-! ## 4. How a round leaves the job -/

/-- The job can be decoded, asks for another attempt whatever happens, and can be saved. -/
def Take.Insists (t : Take) : Prop :=
  ∃ b saved, t.round.runner.registry.decode t.job = .ok b ∧ b.outcome = some .retry ∧
    b.spent.saved = .ok saved

/-- The failure hook of the job breaks off, or that of a job that falls with it. -/
def Take.HookBreaks (t : Take) : Prop :=
  (∃ b, t.ran = some b ∧ b.spent.onFailure.panics = true) ∨
    ∃ k ∈ t.round.runner.fallen t.desk.index t.job, ∃ b,
      t.round.runner.registry.decode k = .ok b ∧ b.fresh.onFailure.panics = true

/-- The job fails.  There is no verdict if a failure hook breaks off when it is told. -/
structure Take.Fails (t : Take) : Prop where
  verdict : ¬t.HookBreaks → t.verdict = .done .failure
  broken : t.HookBreaks → t.verdict = .panicked

/-- The job is gone from memory and from the store. -/
structure Take.Over (t : Take) : Prop where
  verdict : t.verdict ≠ .done .retry
  gone : ¬Held t.left.index.roster.jobs t.job.id ∧ ¬Held t.left.index.stored.jobs t.job.id
  /-- A job that insists is gone only if it has no attempt left. -/
  exhausted : t.job.lifespan = immortal → t.Insists →
    t.job.isSpent (succClamped t.job.attempt) = true ∧ t.Fails

/-- The job is to be attempted again, and this is its record from then on. -/
structure Take.Postponed (t : Take) (again : Job) : Prop where
  verdict : t.verdict = .done .retry
  ran : t.ran.isSome = true
  unspent : t.job.isSpent (succClamped t.job.attempt) = false
  record : ∃ due payload, again =
    { t.job with running := false, attempt := succClamped t.job.attempt, due, payload }
  stored : again ∈ t.left.index.roster.jobs ∧ again ∈ t.left.index.stored.jobs
  matched : Matched t.left.index.roster t.left.index.stored
  accepts : t.left.index.store.refusing = false

theorem Take.Postponed.id {t : Take} {again : Job} (h : t.Postponed again) :
    again.id = t.job.id := by
  obtain ⟨due, payload, rfl⟩ := h.record
  rfl

theorem Take.fails_of_fst {t : Take} {b : Behaviour} (hb : t.ran = some b)
    (hv : t.verdict = if b.spent.onFailure.panics || (t.round.runner.fallen t.desk.index t.job).any
      fun k => (t.round.runner.freshHooks k).any (·.onFailure.panics)
      then .panicked else .done .failure) : t.Fails := by
  have hbreaks : t.HookBreaks ↔ (b.spent.onFailure.panics ||
      (t.round.runner.fallen t.desk.index t.job).any fun k =>
        (t.round.runner.freshHooks k).any (·.onFailure.panics)) = true := by
    simp only [Take.HookBreaks, hb, Option.some.injEq, exists_eq_left', Bool.or_eq_true,
      List.any_eq_true, Runner.freshHooks_any_iff]
  constructor
  · intro h
    rw [hv, if_neg (by rwa [← hbreaks])]
  · intro h
    rw [hv, if_pos (hbreaks.mp h)]

theorem Take.Insists.ran {t : Take} (h : t.Insists) (hlife : t.job.lifespan = immortal) :
    ∃ b saved, t.ran = some b ∧ b.outcome = some .retry ∧ b.spent.saved = .ok saved := by
  obtain ⟨b, saved, hdec, hout, hsaved⟩ := h
  have hexp : t.job.isExpired t.round.began.now = false := by simp [Job.isExpired, hlife]
  exact ⟨b, saved, Runner.attempt?_eq_some_iff.mpr ⟨hexp, hdec⟩, hout, hsaved⟩

section

variable {d d' : Desk (Switched Tables)} {round : Round} {j : Job} {v : Verdict}

/-- A job that insists is not dropped before its attempts are used up. -/
theorem Take.Insists.exhausted (ha : Runner.Accepting d.index j)
    (hexec : round.runner.executeBetween round.began round.ended j d = (v, d'))
    (hins : Take.Insists ⟨round, d, j, v, d'⟩) (hlife : j.lifespan = immortal)
    (hne : v ≠ .done .retry) :
    j.isSpent (succClamped j.attempt) = true ∧ Take.Fails ⟨round, d, j, v, d'⟩ := by
  obtain ⟨b, saved, hb, hout, hsaved⟩ := hins.ran hlife
  have ha' : Runner.Accepting (d.attempted j (some b)).index j := ha
  rw [Runner.executeBetween_of_some hb] at hexec
  cases hspent : j.isSpent (succClamped j.attempt) with
  | false =>
    have hagain := Runner.conclude_of_unspent (r := round.runner) (m := round.ended) hout hspent
      hsaved ha'.reschedule
    rw [hexec] at hagain
    exact absurd hagain hne
  | true =>
    obtain ⟨index, hdel⟩ : ∃ index, d.index.delete
        (j.id :: (round.runner.fallen d.index j).map Job.id) = .ok index := ha.delete _
    have hfst := Runner.fail_fst (d := d.attempted j (some b)) b.spent false "attempts exhausted"
      .failure hdel
    rw [← Runner.conclude_of_spent (m := round.ended) hout hspent, hexec] at hfst
    exact ⟨rfl, Take.fails_of_fst hb hfst⟩

/-- A job that is put off had an attempt left. -/
theorem Runner.unspent_of_retry {b : Behaviour}
    (hexec : round.runner.conclude round.ended j b d = (.done .retry, d'))
    (hout : b.outcome = some .retry) : j.isSpent (succClamped j.attempt) = false := by
  rw [Bool.eq_false_iff]
  intro hspent
  rw [Runner.conclude_of_spent hout hspent] at hexec
  have hdown := Runner.fail_downfall round.runner j (some b.spent) false "attempts exhausted"
    .failure d
  rw [hexec] at hdown
  exact hdown.ne_retry rfl rfl

/-- An attempt of a job that is stored is its last one, or it is put off. -/
theorem Take.cases (hm : Matched d.index.roster d.index.stored)
    (hon : d.index.store.refusing = false) (hj : j ∈ d.index.roster.jobs)
    (hexec : round.runner.executeBetween round.began round.ended j d = (v, d')) :
    Take.Over ⟨round, d, j, v, d'⟩ ∨ ∃ again, Take.Postponed ⟨round, d, j, v, d'⟩ again := by
  have ha := Runner.accepting hm hon hj
  have hrefused : ∀ cause, v ≠ .refused cause := by
    intro cause
    have hne := Runner.executeBetween_ne_refused round.runner round.began round.ended ha cause
    rwa [hexec] at hne
  have hgiven : ∀ {d₀ : Desk (Switched Tables)} {live : Option Hooks} {fatal : Bool}
      {reason : String} {outcome : Outcome}, outcome.isFailure = true →
      round.runner.Downfall j live fatal reason outcome d₀ v d' →
      Take.Over ⟨round, d, j, v, d'⟩ := by
    intro d₀ live fatal reason outcome hout hdown
    have hne := hdown.ne_retry hout
    refine ⟨hne, ?_, fun hlife hins => hins.exhausted ha hexec hlife hne⟩
    cases hdown with
    | refused => exact absurd rfl (hrefused _)
    | dropped hdel => exact (Index.delete_dropped hdel).gone j.id List.mem_cons_self
  cases hran : round.runner.attempt? round.began j with
  | none =>
    obtain ⟨fatal, reason, outcome, hout, heq⟩ :=
      Runner.executeBetween_of_none round.ended d hran
    have hdown := Runner.fail_downfall round.runner j none fatal reason outcome d
    rw [← heq, hexec] at hdown
    exact .inl (hgiven hout hdown)
  | some b =>
    have hconclude := hexec
    rw [Runner.executeBetween_of_some hran] at hconclude
    cases Runner.concluded_of_conclude hconclude with
    | refused => exact absurd rfl (hrefused _)
    | succeeded hdel =>
      have hne : Verdict.done .success ≠ .done .retry := by simp
      exact .inl ⟨hne, (Index.delete_dropped hdel).gone j.id List.mem_cons_self,
        fun hlife hins => hins.exhausted ha hexec hlife hne⟩
    | retried hout _ hres =>
      have hrec := Index.reschedule_recorded (x := d.index) hm hj hres
      obtain ⟨-, -, -, hy⟩ := Index.reschedule_eq_ok_iff.mp hres
      refine .inr ⟨_, rfl, by rw [Take.ran, hran]; rfl, Runner.unspent_of_retry hconclude hout,
        ⟨_, _, rfl⟩, hrec.kept, hrec.matched hm, ?_⟩
      exact (congrArg (fun x : MemoryIndex => x.store.refusing) hy).trans hon
    | fell _ hout hdown => exact .inl (hgiven hout hdown)

end

/-! ## 5. Courses of rounds -/

namespace Desk

variable {d : Desk (Switched Tables)} {j : Job}

/-- A round of a job that is stored: it is attempted with the record that it is stored with. -/
theorem take_cases (hm : Matched d.index.roster d.index.stored)
    (hon : d.index.store.refusing = false) (hj : j ∈ d.index.roster.jobs) (round : Round) :
    ∃ t, d.take j.id round = some t ∧ t.round = round ∧ t.job = { j with running := true } ∧
      (t.Over ∨ ∃ again, t.Postponed again) := by
  obtain ⟨hroster, htables⟩ := hm.contains (List.mem_map.mpr ⟨j, hj, rfl⟩)
  obtain ⟨x, hset, honx⟩ : ∃ x, d.index.setRunning j.id true = .ok x ∧ x.store.refusing = false :=
    ⟨_, Index.setRunning_eq_ok_iff.mpr ⟨hroster, hon, htables, rfl⟩, hon⟩
  have hrec := Index.setRunning_recorded hm hj hset
  have hmx := hrec.matched hm
  have hget : x.roster.get? j.id = some { j with running := true } :=
    hmx.get?_eq_some_iff.mpr ⟨hrec.kept.1, rfl⟩
  refine ⟨⟨round, _, _, _, _⟩, ?_, rfl, rfl,
    Take.cases (d := { d with index := x }) hmx honx hrec.kept.1 rfl⟩
  simp only [take, hset, hget, Option.map_some]
  rfl

theorem take_of_not_held {id : JobId} (h : ¬Held d.index.roster.jobs id) (round : Round) :
    d.take id round = none := by
  unfold take
  cases hset : d.index.setRunning id true with
  | error e => rfl
  | ok x =>
    exact absurd (Roster.contains_iff.mp (Index.setRunning_eq_ok_iff.mp hset).1) h

theorem takes_of_not_held {id : JobId} (h : ¬Held d.index.roster.jobs id) :
    ∀ rounds : List Round, d.takes id rounds = []
  | [] => rfl
  | round :: rest => by
    rw [takes, take_of_not_held h round]
    exact takes_of_not_held h rest

end Desk

/-- Courses of a job that is stored with this record: it is over, or put off and taken again as far
as there are rounds left. -/
inductive Course : Job → List Round → List Take → Prop
  | idle (j : Job) : Course j [] []
  | ended {j : Job} {t : Take} {rounds : List Round} : t.job = { j with running := true } →
    t.Over → Course j (t.round :: rounds) [t]
  | again {j again : Job} {t : Take} {rounds : List Round} {takes : List Take} :
    t.job = { j with running := true } → t.Postponed again → Course again rounds takes →
    Course j (t.round :: rounds) (t :: takes)

theorem Desk.course_takes : ∀ (rounds : List Round) {d : Desk (Switched Tables)} {j : Job},
    Matched d.index.roster d.index.stored → d.index.store.refusing = false →
    j ∈ d.index.roster.jobs → Course j rounds (d.takes j.id rounds)
  | [], _, j, _, _, _ => .idle j
  | round :: rest, d, j, hm, hon, hj => by
    obtain ⟨t, ht, rfl, hjob, hover | ⟨again, hpost⟩⟩ := take_cases hm hon hj round
    · have hid : t.job.id = j.id := by rw [hjob]
      have hrest : t.left.takes j.id rest = [] := takes_of_not_held (hid ▸ hover.gone.1) rest
      simp only [takes, ht, hrest]
      exact .ended hjob hover
    · have hid : again.id = j.id := by rw [hpost.id, hjob]
      have hrest := course_takes rest hpost.matched hpost.accepts hpost.stored.1
      rw [hid] at hrest
      simp only [takes, ht]
      exact .again hjob hpost hrest

/-! ## 6. How many attempts there are -/

/-- The number of attempts that are left to a job with a limit.  However it stands, there is one. -/
def Job.allowance (j : Job) : Nat := (max 1 (j.maxAttempts.toInt - j.attempt.toInt)).toNat

theorem Job.allowance_pos (j : Job) : 0 < j.allowance := by
  unfold Job.allowance; omega

/-- One more, unless the counter stands at the end of its range. -/
theorem toInt_succClamped_eq_min (a : Int32) :
    (succClamped a).toInt = min (a.toInt + 1) Int32.maxValue.toInt := by
  have hlo := a.minValue_le_toInt
  have hhi := a.toInt_le
  rw [toInt_succClamped, clamp32, clamp]
  omega

/-- A job that has no attempt left after this one is at its last. -/
theorem Job.allowance_of_isSpent {j : Job} (h : j.isSpent (succClamped j.attempt) = true) :
    j.allowance = 1 := by
  obtain ⟨-, hle⟩ := (j.isSpent_iff _).mp h
  rw [toInt_succClamped_eq_min] at hle
  unfold Job.allowance
  omega

namespace Take.Postponed

variable {t : Take} {again : Job}

/-- The count goes up by one: it is below the limit, so it has not stopped at the end of its
range. -/
theorem attempt (h : t.Postponed again) (hmax : t.job.maxAttempts ≠ unlimited) :
    again.attempt.toInt = t.job.attempt.toInt + 1 ∧
      again.attempt.toInt < again.maxAttempts.toInt := by
  have hunspent := h.unspent
  rw [Bool.eq_false_iff, ne_eq, Job.isSpent_iff, not_and, not_le] at hunspent
  have hlt := hunspent hmax
  have hhi := t.job.maxAttempts.toInt_le
  obtain ⟨due, payload, rfl⟩ := h.record
  simp only
  rw [toInt_succClamped_eq_min] at hlt ⊢
  omega

theorem maxAttempts (h : t.Postponed again) : again.maxAttempts = t.job.maxAttempts := by
  obtain ⟨due, payload, rfl⟩ := h.record
  rfl

theorem lifespan (h : t.Postponed again) : again.lifespan = t.job.lifespan := by
  obtain ⟨due, payload, rfl⟩ := h.record
  rfl

theorem allowance (h : t.Postponed again) (hmax : t.job.maxAttempts ≠ unlimited) :
    t.job.allowance = again.allowance + 1 := by
  have hattempt := h.attempt hmax
  unfold Job.allowance
  rw [h.maxAttempts] at hattempt ⊢
  omega

end Take.Postponed

/-- The record that is read in a round has the limit that was stored. -/
theorem Job.allowance_of_marked {t : Take} {j : Job} (h : t.job = { j with running := true }) :
    t.job.allowance = j.allowance := by rw [h]; rfl

namespace Course

variable {j : Job} {rounds : List Round} {takes : List Take}

theorem length_le (h : Course j rounds takes) (hmax : j.maxAttempts ≠ unlimited) :
    takes.length ≤ j.allowance := by
  induction h with
  | idle => exact Nat.zero_le _
  | @ended j => exact j.allowance_pos
  | @again j again t rounds takes hjob hpost _ ih =>
    have hmax' : t.job.maxAttempts ≠ unlimited := by rwa [hjob]
    have hrest := ih (by rwa [hpost.maxAttempts])
    rw [← Job.allowance_of_marked hjob, hpost.allowance hmax', List.length_cons]
    omega

/-- With as many rounds as the job has attempts left, it is gone at the end. -/
theorem last_gone (h : Course j rounds takes) (hmax : j.maxAttempts ≠ unlimited)
    (hrounds : j.allowance ≤ rounds.length) :
    ∃ last, takes.getLast? = some last ∧ ¬Held last.left.index.roster.jobs j.id ∧
      ¬Held last.left.index.stored.jobs j.id := by
  induction h with
  | idle j => exact absurd j.allowance_pos (by simpa using hrounds)
  | @ended j t rounds hjob hover =>
    have hid : t.job.id = j.id := by rw [hjob]
    exact ⟨t, rfl, hid ▸ hover.gone⟩
  | @again j again t rounds takes hjob hpost _ ih =>
    have hmax' : t.job.maxAttempts ≠ unlimited := by rwa [hjob]
    have hid : again.id = j.id := by rw [hpost.id, hjob]
    rw [← Job.allowance_of_marked hjob, hpost.allowance hmax', List.length_cons] at hrounds
    obtain ⟨last, hlast, hgone⟩ := ih (by rwa [hpost.maxAttempts]) (by omega)
    exact ⟨last, by rw [List.getLast?_cons, hlast]; rfl, hid ▸ hgone⟩

/-- The attempts are numbered on from where the job stood. -/
theorem attempt (h : Course j rounds takes) (hmax : j.maxAttempts ≠ unlimited) :
    ∀ (i : Nat) t, takes[i]? = some t → t.job.attempt.toInt = j.attempt.toInt + i := by
  induction h with
  | idle => simp
  | @ended j t rounds hjob _ =>
    intro i u hu
    obtain ⟨rfl, rfl⟩ : i = 0 ∧ t = u := by
      cases i with
      | zero => exact ⟨rfl, by simpa using hu⟩
      | succ i => simp at hu
    rw [hjob]
    simp
  | @again j again t rounds takes hjob hpost _ ih =>
    have hmax' : t.job.maxAttempts ≠ unlimited := by rwa [hjob]
    have hagain := (hpost.attempt hmax').1
    intro i u hu
    cases i with
    | zero =>
      obtain rfl : t = u := by simpa using hu
      rw [hjob]
      simp
    | succ i =>
      have hnext := ih (by rwa [hpost.maxAttempts]) i u (by simpa using hu)
      rw [hnext, hagain, hjob]
      push_cast
      ring

/-- A job that is to be attempted again is stored with its count one higher. -/
theorem raised (h : Course j rounds takes) (hmax : j.maxAttempts ≠ unlimited) :
    ∀ t ∈ takes, t.verdict = .done .retry →
      ∃ again, again ∈ t.left.index.roster.jobs ∧ again ∈ t.left.index.stored.jobs ∧
        again.id = t.job.id ∧ again.attempt.toInt = t.job.attempt.toInt + 1 := by
  induction h with
  | idle => simp
  | ended _ hover =>
    intro u hu hverdict
    obtain rfl := List.mem_singleton.mp hu
    exact absurd hverdict hover.verdict
  | @again j again t rounds takes hjob hpost _ ih =>
    have hmax' : t.job.maxAttempts ≠ unlimited := by rwa [hjob]
    intro u hu hverdict
    rcases List.mem_cons.mp hu with rfl | hu
    · exact ⟨again, hpost.stored.1, hpost.stored.2, hpost.id, (hpost.attempt hmax').1⟩
    · exact ih (by rwa [hpost.maxAttempts]) u hu hverdict

/-- A job that never expires and always insists has all its attempts, and fails at the last. -/
theorem exact (h : Course j rounds takes) (hmax : j.maxAttempts ≠ unlimited)
    (hlife : j.lifespan = immortal) (hins : ∀ t ∈ takes, t.Insists)
    (hrounds : j.allowance ≤ rounds.length) :
    takes.length = j.allowance ∧ (∀ t ∈ takes, t.ran.isSome = true) ∧
      ∃ front last, takes = front ++ [last] ∧ (∀ t ∈ front, t.verdict = .done .retry) ∧
        last.Fails := by
  induction h with
  | idle j => exact absurd j.allowance_pos (by simpa using hrounds)
  | @ended j t rounds hjob hover =>
    have hlife' : t.job.lifespan = immortal := by rwa [hjob]
    have ht : t.Insists := hins t List.mem_cons_self
    obtain ⟨hspent, hfails⟩ := hover.exhausted hlife' ht
    obtain ⟨b, -, hran, -⟩ := ht.ran hlife'
    refine ⟨?_, by simp [hran], [], t, rfl, by simp, hfails⟩
    rw [← Job.allowance_of_marked hjob, Job.allowance_of_isSpent hspent]
    rfl
  | @again j again t rounds takes hjob hpost _ ih =>
    have hmax' : t.job.maxAttempts ≠ unlimited := by rwa [hjob]
    rw [← Job.allowance_of_marked hjob, hpost.allowance hmax', List.length_cons] at hrounds
    obtain ⟨hlen, hran, front, last, rfl, hfront, hfails⟩ :=
      ih (by rwa [hpost.maxAttempts]) (by rwa [hpost.lifespan, hjob])
        (fun u hu => hins u (List.mem_cons_of_mem _ hu)) (by omega)
    refine ⟨?_, ?_, t :: front, last, rfl, ?_, hfails⟩
    · rw [← Job.allowance_of_marked hjob, hpost.allowance hmax', List.length_cons, hlen]
    · exact List.forall_mem_cons.mpr ⟨hpost.ran, hran⟩
    · exact List.forall_mem_cons.mpr ⟨hpost.verdict, hfront⟩

end Course

/-- **A job with a limit is attempted no more often than it is allowed**, whatever it does and
whoever runs it.  After so many rounds it is gone.  Its attempts are numbered on from where it
stood, and each that is to be followed by another one is counted in memory and in the store.  A job
that never expires, can always be decoded and saved and always asks for another attempt is attempted
exactly so often: it is put off each time but the last, and then it fails. -/
theorem Desk.attempts_bounded {d : Desk (Switched Tables)} {j : Job}
    (hm : Matched d.index.roster d.index.stored) (hon : d.index.store.refusing = false)
    (hj : j ∈ d.index.roster.jobs) (hmax : j.maxAttempts ≠ unlimited) (rounds : List Round) :
    (d.takes j.id rounds).countP (fun t => t.ran.isSome) ≤ j.allowance ∧
    (j.allowance ≤ rounds.length → ∃ last, (d.takes j.id rounds).getLast? = some last ∧
      ¬Held last.left.index.roster.jobs j.id ∧ ¬Held last.left.index.stored.jobs j.id) ∧
    (∀ (i : Nat) t, (d.takes j.id rounds)[i]? = some t →
      t.job.attempt.toInt = j.attempt.toInt + i) ∧
    (∀ t ∈ d.takes j.id rounds, t.verdict = .done .retry →
      ∃ again, again ∈ t.left.index.roster.jobs ∧ again ∈ t.left.index.stored.jobs ∧
        again.id = t.job.id ∧ again.attempt.toInt = t.job.attempt.toInt + 1) ∧
    (j.lifespan = immortal → (∀ t ∈ d.takes j.id rounds, t.Insists) →
      j.allowance ≤ rounds.length →
        (d.takes j.id rounds).countP (fun t => t.ran.isSome) = j.allowance ∧
        ∃ front last, d.takes j.id rounds = front ++ [last] ∧
          (∀ t ∈ front, t.verdict = .done .retry) ∧ last.Fails) := by
  have hcourse := course_takes rounds hm hon hj
  refine ⟨List.countP_le_length.trans (hcourse.length_le hmax), hcourse.last_gone hmax,
    hcourse.attempt hmax, hcourse.raised hmax, fun hlife hins hrounds => ?_⟩
  obtain ⟨hlen, hran, hparts⟩ := hcourse.exact hmax hlife hins hrounds
  exact ⟨(List.countP_eq_length.mpr hran).trans hlen, hparts⟩

/-- A job that may be attempted three times in all and has been attempted once. -/
def tried : Job :=
  { id := ⟨"fetch"⟩, factory := "http", created := 1, attempt := 1, maxAttempts := 3 }

def triedDesk : Desk (Switched Tables) :=
  { index := (Index.fresh .runToCompletion).run [.insert [{ job := tried }]] }

/-- Three rounds, the last of which finds nothing to do. -/
def insistentRounds : List Round :=
  [7, 20, 40].map fun now => ⟨Runner.insistent, { now }, { now }⟩

theorem Desk.attempts_bounded_tried :
    Matched triedDesk.index.roster triedDesk.index.stored ∧
      triedDesk.index.store.refusing = false ∧ tried ∈ triedDesk.index.roster.jobs ∧
      tried.maxAttempts ≠ unlimited ∧ tried.allowance = 2 ∧
      (triedDesk.takes tried.id insistentRounds).map (fun t => (t.job.attempt, t.verdict))
        = [(1, .done .retry), (2, .done .failure)] ∧
      (triedDesk.takes tried.id insistentRounds).countP (fun t => t.ran.isSome) = 2 := by
  have hm : Matched triedDesk.index.roster triedDesk.index.stored := matched_run _ _
  have hjobs : triedDesk.index.roster.jobs = [tried] := by cbv
  have hj : tried ∈ triedDesk.index.roster.jobs := hjobs ▸ List.mem_singleton.mpr rfl
  have hins : ∀ t ∈ triedDesk.takes tried.id insistentRounds, t.Insists := by
    have htakes : triedDesk.takes tried.id insistentRounds = [_, _] := rfl
    rw [htakes]
    simp only [List.forall_mem_cons]
    exact ⟨⟨_, _, rfl, rfl, rfl⟩, ⟨_, _, rfl, rfl, rfl⟩, by simp⟩
  obtain ⟨-, -, -, -, hexact⟩ :=
    attempts_bounded hm rfl hj (by decide) insistentRounds
  exact ⟨hm, rfl, hj, by decide, rfl, rfl, (hexact rfl hins (by decide)).1⟩

end Backlog
