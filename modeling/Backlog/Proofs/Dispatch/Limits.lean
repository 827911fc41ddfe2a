/-
# What a limit on the jobs of a kind is worth

A job may carry a limit on the jobs with its factory key.  A batch is checked job by job, and each
against those that are stored and those in front of it in the batch, so what comes behind is held
only against its own limit, should it carry one.

* `Job.allows`: whether the limit that a job carries allows so many jobs;
* `Dispatch.overLimit?_eq_none_iff`: what the check lets pass, job by job;
* `Dispatch.countOf_enqueue`: how many jobs of a kind there are once a batch has been taken in;
* `Job.LooserThan`, `Dispatch.limits_kept_iff`: **a limit is kept exactly if no job behind it that
  is held to less brings in more than it allows.**  The last job of its kind in the batch settles
  the matter: the limit of that one has been checked against all of them.
-/
import Backlog.Proofs.Dispatch.Steps
import Backlog.Store.Switched

namespace Backlog

/-! ## 1. Limits -/

/-- Whether the limit that a job carries allows so many jobs with its factory key.  A negative limit
other than "no limit" allows none. -/
def Job.allows (j : Job) (count : Nat) : Prop :=
  j.maxInstances = unlimited ∨ count ≤ j.maxInstances.toInt.toNat

instance (j : Job) (count : Nat) : Decidable (j.allows count) :=
  inferInstanceAs (Decidable (_ ∨ _))

/-- Whatever a limit allows, it allows less as well. -/
theorem Job.allows.mono {j : Job} {few many : Nat} (h : j.allows many) (hle : few ≤ many) :
    j.allows few :=
  h.imp_right hle.trans

/-- `t` is of the same kind as `s` and carries a limit that allows more, or none while `s` carries
one. -/
def Job.LooserThan (t s : Job) : Prop :=
  t.factory = s.factory ∧ ∃ count, t.allows count ∧ ¬s.allows count

theorem Job.allows_of_not_looserThan {s t : Job} (hkind : t.factory = s.factory)
    (h : ¬t.LooserThan s) {count : Nat} (ht : t.allows count) : s.allows count :=
  not_not.mp fun hs => h ⟨hkind, count, ht, hs⟩

namespace Dispatch

/-! ## 2. Counting the jobs of a kind -/

theorem countIn_append (front behind : List Submission) (factory : String) :
    countIn (front ++ behind) factory = countIn front factory + countIn behind factory :=
  List.countP_append

theorem countIn_cons_self (s : Submission) (behind : List Submission) :
    countIn (s :: behind) s.job.factory = countIn behind s.job.factory + 1 :=
  List.countP_cons_of_pos (beq_self_eq_true _)

/-- The last job of a kind. -/
theorem exists_last_of_countIn {factory : String} :
    ∀ {batch : List Submission}, countIn batch factory ≠ 0 →
      ∃ front t rest, batch = front ++ t :: rest ∧ t.job.factory = factory ∧
        countIn rest factory = 0
  | [], h => absurd rfl h
  | s :: rest, h => by
    by_cases hrest : countIn rest factory = 0
    · refine ⟨[], s, rest, rfl, ?_, hrest⟩
      by_contra hs
      exact h ((List.countP_cons_of_neg (by simpa using hs)).trans hrest)
    · obtain ⟨front, t, last, rfl, ht, hlast⟩ := exists_last_of_countIn hrest
      exact ⟨s :: front, t, last, rfl, ht, hlast⟩

/-! ## 3. What is let pass -/

variable {σ : Type}

/-- A batch passes if each of its jobs is allowed beside those that are stored and those in front
of it. -/
theorem overLimit?_eq_none_iff {x : Index σ} :
    ∀ {batch before : List Submission}, overLimit? x before batch = none ↔
      ∀ front s behind, batch = front ++ s :: behind →
        s.job.allows (x.roster.countOf s.job.factory +
          countIn (before ++ front) s.job.factory + 1)
  | [], before => by simp [overLimit?]
  | s :: rest, before => by
    have hallows : ∀ count, s.job.allows count ↔
        ¬(s.job.maxInstances ≠ unlimited ∧ s.job.maxInstances.toInt.toNat < count) := by
      intro count
      rw [Job.allows, not_and_or, not_not, not_lt]
    rw [overLimit?]
    split
    · rename_i hover
      refine iff_of_false (by simp) fun hall => (hallows _).mp (hall [] s rest rfl) ?_
      rwa [List.append_nil]
    · rename_i hwithin
      rw [overLimit?_eq_none_iff]
      constructor
      · rintro hrest front t behind hsplit
        cases front with
        | nil =>
          obtain ⟨rfl, rfl⟩ := List.cons.inj hsplit
          rw [List.append_nil]
          exact (hallows _).mpr hwithin
        | cons u front =>
          obtain ⟨rfl, rfl⟩ := List.cons.inj hsplit
          rw [List.append_cons]
          exact hrest front t behind rfl
      · rintro hall front t behind rfl
        have ht := hall (s :: front) t behind rfl
        rwa [List.append_cons] at ht

variable [Storage σ] {d d' : Dispatch σ} {batch before behind : List Submission} {s : Submission}

theorem allows_of_enqueue (h : d.enqueue batch = .ok d') (hsplit : batch = before ++ s :: behind) :
    s.job.allows
      (d.desk.index.roster.countOf s.job.factory + countIn before s.job.factory + 1) := by
  unfold Dispatch.enqueue at h
  split at h
  · cases h
  · rename_i hnone
    exact overLimit?_eq_none_iff.mp hnone before s behind hsplit

variable [Tabular σ]

theorem countOf_enqueue (h : d.enqueue batch = .ok d') (factory : String) :
    d'.desk.index.roster.countOf factory =
      d.desk.index.roster.countOf factory + countIn batch factory := by
  obtain ⟨index, hins, rfl⟩ := enqueue_eq_ok h
  rw [Roster.countOf, Index.jobs_of_insert hins, List.countP_append, List.countP_map]
  rfl

/-! ## 4. Whether a limit is kept -/

/-- The limit of one job of a batch. -/
theorem limit_kept_iff (h : d.enqueue batch = .ok d') (hsplit : batch = before ++ s :: behind) :
    s.job.allows (d'.desk.index.roster.countOf s.job.factory) ↔
      ∀ mid t rest, behind = mid ++ t :: rest → t.job.LooserThan s.job →
        s.job.allows (d.desk.index.roster.countOf s.job.factory +
          countIn (before ++ s :: mid) s.job.factory + 1) := by
  have htotal := countOf_enqueue h s.job.factory
  -- a job of the kind, those in front of it and those behind it are all that there are
  have hparts : ∀ mid (t : Submission) rest, t.job.factory = s.job.factory →
      behind = mid ++ t :: rest → d'.desk.index.roster.countOf s.job.factory =
        d.desk.index.roster.countOf s.job.factory +
          countIn (before ++ s :: mid) s.job.factory + 1 + countIn rest s.job.factory := by
    rintro mid t rest hkind rfl
    have hsplit' : batch = (before ++ s :: mid) ++ t :: rest := by simpa using hsplit
    rw [htotal, hsplit', countIn_append, ← hkind, countIn_cons_self]
    omega
  constructor
  · rintro hkept mid t rest hmid ⟨hkind, -⟩
    refine hkept.mono ?_
    rw [hparts mid t rest hkind hmid]
    omega
  · intro hbehind
    by_cases hnone : countIn behind s.job.factory = 0
    · have hself := allows_of_enqueue h hsplit
      rwa [htotal, hsplit, countIn_append, countIn_cons_self, hnone]
    · -- the last job of the kind has been checked against all of them
      obtain ⟨mid, t, rest, hmid, hkind, hlast⟩ := exists_last_of_countIn hnone
      rw [hparts mid t rest hkind hmid, hlast, Nat.add_zero]
      by_cases hloose : t.job.LooserThan s.job
      · exact hbehind mid t rest hmid hloose
      · have hsplit' : batch = (before ++ s :: mid) ++ t :: rest := by simp [hsplit, hmid]
        have ht := allows_of_enqueue h hsplit'
        rw [hkind] at ht
        exact Job.allows_of_not_looserThan hkind hloose ht

/-- **When accepted batches respect the limits that they carry.**  The limit of a job is kept
exactly if none of the jobs behind it that is of its kind and looser goes beyond it.  So all limits
are kept where no job is looser than one of its kind in front of it. -/
theorem limits_kept_iff (h : d.enqueue batch = .ok d') :
    (∀ before s behind, batch = before ++ s :: behind →
      (s.job.allows (d'.desk.index.roster.countOf s.job.factory) ↔
        ∀ mid t rest, behind = mid ++ t :: rest → t.job.LooserThan s.job →
          s.job.allows (d.desk.index.roster.countOf s.job.factory +
            countIn (before ++ s :: mid) s.job.factory + 1))) ∧
    ((batch.Pairwise fun s t => ¬t.job.LooserThan s.job) →
      ∀ s ∈ batch, s.job.allows (d'.desk.index.roster.countOf s.job.factory)) := by
  refine ⟨fun before s behind hsplit => limit_kept_iff h hsplit, fun hpair s hs => ?_⟩
  obtain ⟨before, behind, rfl⟩ := List.append_of_mem hs
  refine (limit_kept_iff h rfl).mpr ?_
  rintro mid t rest rfl hloose
  have hbehind := (List.pairwise_append.mp hpair).2.1
  exact absurd hloose (List.rel_of_pairwise_cons hbehind (by simp))

/-- A job that allows so many of its kind. -/
def capped (name : String) (limit : Int32) : Job :=
  { id := ⟨name⟩, factory := "http", created := 1, maxInstances := limit }

/-- A dispatcher that holds these jobs. -/
def holdingJobs (jobs : List Job) : Dispatch (Switched Tables) :=
  let batch : List Submission := jobs.map fun j => { job := j }
  { desk := { index := (Index.fresh .runToCompletion).run [.insert batch] } }

/-- A job that allows three of its kind, one that allows any number, and one of another kind. -/
def mixedBatch : List Submission :=
  [{ job := capped "bounded" 3 }, { job := capped "free" unlimited },
    { job := { capped "other" 1 with factory := "mail" } }]

/-- Beside one that is stored, the first two make three, which is what the first one allows. -/
theorem limits_kept_mixedBatch :
    ∃ d', (holdingJobs [capped "stored" 1]).enqueue mixedBatch = .ok d' ∧
      d'.desk.index.roster.countOf "http" = 3 ∧
      ((capped "bounded" 3).allows (d'.desk.index.roster.countOf "http") ↔
        ∀ mid t rest, mixedBatch.tail = mid ++ t :: rest → t.job.LooserThan (capped "bounded" 3) →
          (capped "bounded" 3).allows ((holdingJobs [capped "stored" 1]).desk.index.roster.countOf
            "http" + countIn ({ job := capped "bounded" 3 } :: mid) "http" + 1)) := by
  have hok : ((holdingJobs [capped "stored" 1]).enqueue mixedBatch).isOk = true := by cbv
  cases hd : (holdingJobs [capped "stored" 1]).enqueue mixedBatch with
  | error e => rw [hd] at hok; cases hok
  | ok d' =>
    have hcount : d'.desk.index.roster.countOf "http" = 3 :=
      (countOf_enqueue hd "http").trans (by cbv)
    exact ⟨d', rfl, hcount, (limits_kept_iff hd).1 [] _ _ rfl⟩

/-- A job that is to be the only one of its kind, and one of the same kind without a limit. -/
def soleFirst : List Submission :=
  [{ job := capped "sole" 1 }, { job := capped "free" unlimited }]

/-- The batch is taken in, and there are two of the kind.  In the other order it is turned down. -/
theorem sole_joined :
    (∃ d', (holdingJobs []).enqueue soleFirst = .ok d' ∧
      ∃ s ∈ soleFirst, s.job.maxInstances ≠ unlimited ∧
        ¬d'.desk.index.roster.countOf s.job.factory ≤ s.job.maxInstances.toInt.toNat) ∧
    (holdingJobs []).enqueue soleFirst.reverse = .error (.tooMany "http" 1) := by
  refine ⟨?_, by cbv⟩
  have hok : ((holdingJobs []).enqueue soleFirst).isOk = true := by cbv
  cases hd : (holdingJobs []).enqueue soleFirst with
  | error e => rw [hd] at hok; cases hok
  | ok d' =>
    have hcount : d'.desk.index.roster.countOf "http" = 2 :=
      (countOf_enqueue hd "http").trans (by cbv)
    refine ⟨d', rfl, _, List.mem_cons_self, by decide, ?_⟩
    show ¬d'.desk.index.roster.countOf "http" ≤ 1
    omega

end Dispatch

end Backlog
