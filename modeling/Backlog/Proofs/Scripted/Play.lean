/-
# A script is played to its end

A scripted job keeps its place in the record that is stored, so that it does not matter who attempts
it next, when, and whether the index was opened anew in between.

* `Change.Spares`: changes of the index that leave the record of a job alone but for its mark, a
  restart among them, and `Change.Spares.record`: one case a change;
* `Leg`, `Desk.play`: attempts of a job as it is stored, with other changes in between;
* `Script.attempts`, `Script.outcome`: how many attempts a script takes, and how the last one ends;
* `Scripted.play_awaiting`: the run lemma, by recursion on the legs;
* `Scripted.played_out`: **a script is played to its end, one step an attempt, and then the job is
  gone.**
-/
import Backlog.Proofs.Rewrite
import Backlog.Proofs.Scripted.Attempt

namespace Backlog

/-! ## 1. What else happens to the index -/

/-- The record without its mark. -/
def Job.unmarked (j : Job) : Job := { j with running := false }

/-- A change that leaves the record of `id` alone but for its mark.  The store takes writes. -/
def Change.Spares (id : JobId) : Change → Prop
  | insert batch => ∀ s ∈ batch, s.id ≠ id
  | reschedule other _ _ _ _ => other ≠ id
  | amend jobs => ∀ j ∈ jobs, j.id ≠ id
  | delete ids => id ∉ ids
  | refuse refusing => refusing = false
  | setRunning _ _ | clearRunning | reopen _ => True

instance (id : JobId) : (c : Change) → Decidable (c.Spares id)
  | .insert batch => inferInstanceAs (Decidable (∀ s ∈ batch, s.id ≠ id))
  | .reschedule other _ _ _ _ => inferInstanceAs (Decidable (other ≠ id))
  | .amend jobs => inferInstanceAs (Decidable (∀ j ∈ jobs, j.id ≠ id))
  | .delete ids => inferInstanceAs (Decidable (id ∉ ids))
  | .refuse refusing => inferInstanceAs (Decidable (refusing = false))
  | .setRunning .. | .clearRunning | .reopen _ => .isTrue trivial

theorem Roster.mem_foldl_replace_iff {k : Job} : ∀ {jobs : List Job} {r : Roster},
    (r.jobs.map Job.id).Nodup → (∀ j ∈ jobs, j.id ≠ k.id) →
      (k ∈ (jobs.foldl replace r).jobs ↔ k ∈ r.jobs)
  | [], _, _, _ => Iff.rfl
  | j :: rest, r, hu, hother => by
    have hne : k.id ≠ j.id := (hother j List.mem_cons_self).symm
    have hkept : k ∈ (r.replace j).jobs ↔ k ∈ r.jobs := by
      rw [mem_replace_iff hu]
      constructor
      · rintro (⟨rfl, -⟩ | ⟨hk, -⟩)
        · exact absurd rfl hne
        · exact hk
      · exact fun hk => .inr ⟨hk, hne⟩
    rw [List.foldl_cons, mem_foldl_replace_iff (by rwa [map_id_replace]) fun i hi =>
      hother i (List.mem_cons_of_mem _ hi), hkept]

section

variable {x y : MemoryIndex} {id : JobId}

/-- Look-ups agree where the same jobs with this id are there. -/
theorem Roster.get?_congr (hx : Matched x.roster x.stored) (hy : Matched y.roster y.stored)
    (h : ∀ k, k.id = id → (k ∈ y.roster.jobs ↔ k ∈ x.roster.jobs)) :
    y.roster.get? id = x.roster.get? id := by
  refine Option.ext fun k => ?_
  rw [hx.get?_eq_some_iff, hy.get?_eq_some_iff]
  exact and_congr_left fun hid => h k hid

/-- Another record of another job, or one with another mark. -/
theorem Recorded.get? (hx : Matched x.roster x.stored) {j again : Job} (h : Recorded x y again)
    (hj : j ∈ x.roster.jobs) (hid : again.id = j.id)
    (hagain : again.id = id → again.unmarked = j.unmarked) :
    (y.roster.get? id).map Job.unmarked = (x.roster.get? id).map Job.unmarked := by
  have hy := h.matched hx
  by_cases hsame : again.id = id
  · rw [hy.get?_eq_some_iff.mpr ⟨h.kept.1, hsame⟩,
      hx.get?_eq_some_iff.mpr ⟨hj, hid.symm.trans hsame⟩]
    exact congrArg some (hagain hsame)
  · rw [Roster.get?_congr hx hy fun k hk => ?_]
    rw [h.mem_iff]
    constructor
    · rintro (rfl | ⟨hmem, -⟩)
      · exact absurd hk hsame
      · exact hmem
    · exact fun hmem => .inr ⟨hmem, fun heq => hsame (heq.symm.trans hk)⟩

theorem Index.Sound.perform (hx : x.Sound) {c : Change} (hc : c.Spares id)
    (hxy : x.perform c = .ok y) : y.Sound := by
  refine ⟨hx.matched.perform hxy, ?_⟩
  have hon := hx.accepts
  cases c with
  | insert batch =>
    obtain ⟨-, -, -, rfl⟩ := Index.insert_eq_ok_iff.mp hxy
    exact hon
  | setRunning other running =>
    obtain ⟨-, -, -, rfl⟩ := Index.setRunning_eq_ok_iff.mp hxy
    exact hon
  | reschedule other running attempt due payload =>
    obtain ⟨-, -, -, rfl⟩ := Index.reschedule_eq_ok_iff.mp hxy
    exact hon
  | clearRunning =>
    obtain ⟨-, rfl⟩ := Index.clearRunning_eq_ok_iff.mp hxy
    exact hon
  | amend jobs =>
    obtain ⟨-, rfl⟩ := Index.amend_eq_ok_iff.mp hxy
    exact hon
  | delete ids =>
    obtain ⟨-, rfl⟩ := Index.delete_eq_ok_iff.mp hxy
    exact hon
  | reopen discipline =>
    obtain rfl := Index.open_eq_ok_iff.mp hxy
    exact hon
  | refuse refusing =>
    obtain rfl := Except.ok.inj hxy
    exact hc

/-- The record of the job is the same after the change, but for its mark. -/
theorem Change.Spares.record {c : Change} (hc : c.Spares id) (hx : x.Sound)
    (hxy : x.perform c = .ok y) :
    (y.roster.get? id).map Job.unmarked = (x.roster.get? id).map Job.unmarked := by
  have hm := hx.matched
  have hy := (hx.perform hc hxy).matched
  cases c with
  | insert batch =>
    obtain ⟨-, -, -, rfl⟩ := Index.insert_eq_ok_iff.mp hxy
    rw [Roster.get?_congr hm hy fun k hk => ?_]
    rw [Index.roster_holding, Roster.jobs_insert, List.mem_append, or_iff_left]
    intro hbatch
    obtain ⟨s, hs, rfl⟩ := List.mem_map.mp hbatch
    exact hc s hs hk
  | setRunning other running =>
    obtain ⟨j, hj, rfl⟩ := List.mem_map.mp
      (Roster.contains_iff.mp (Index.setRunning_eq_ok_iff.mp hxy).1)
    exact (Index.setRunning_recorded hm hj hxy).get? hm hj rfl fun _ => rfl
  | reschedule other running attempt due payload =>
    obtain ⟨j, hj, rfl⟩ := List.mem_map.mp (Index.held_of_reschedule hxy)
    exact (Index.reschedule_recorded hm hj hxy).get? hm hj rfl fun hid => absurd hid hc
  | clearRunning =>
    obtain ⟨-, rfl⟩ := Index.clearRunning_eq_ok_iff.mp hxy
    simp only [Index.roster_holding, Roster.clearRunning, Roster.get?, List.find?_map,
      Option.map_map]
    rfl
  | amend jobs =>
    obtain ⟨-, rfl⟩ := Index.amend_eq_ok_iff.mp hxy
    rw [Roster.get?_congr hm hy fun k hk => ?_]
    exact Roster.mem_foldl_replace_iff hm.roster_unique fun j hj =>
      hk.symm ▸ hc j (List.mem_of_mem_filter hj)
  | delete ids =>
    rw [Roster.get?_congr hm hy fun k hk => ?_]
    rw [(Index.delete_dropped hxy).mem_iff, and_iff_left (hk ▸ hc)]
  | reopen discipline =>
    obtain rfl := Index.open_eq_ok_iff.mp hxy
    rw [Roster.get?_congr hm hy fun k _ => hy.mem_iff.trans hm.mem_iff.symm]
  | refuse refusing =>
    obtain rfl := Except.ok.inj hxy
    rfl

end

/-! ## 2. Attempts with other changes in between -/

/-- What happens to a job that is stored, or to the index that it is stored in. -/
inductive Leg
  | change (c : Change)
  /-- The job is attempted as it is stored, if it is. -/
  | attempt (round : Round)

namespace Leg

def isAttempt : Leg → Bool
  | attempt _ => true
  | change _ => false

/-- The job is attempted by runners that know scripts, and left alone otherwise. -/
def Fair (id : JobId) : Leg → Prop
  | change c => c.Spares id
  | attempt round => round.runner.Plays

end Leg

/-- The verdicts of the attempts, and the desk that is left. -/
def Desk.play (d : Desk (Switched Tables)) (id : JobId) :
    List Leg → List Verdict × Desk (Switched Tables)
  | [] => ([], d)
  | .change c :: rest => Desk.play { d with index := d.index.after c } id rest
  | .attempt round :: rest =>
    match d.index.roster.get? id with
    | none => d.play id rest
    | some j =>
      let done := round.runner.executeBetween round.began round.ended j d
      let left := done.2.play id rest
      (done.1 :: left.1, left.2)

/-- A change that is turned down spares everybody. -/
theorem Index.Sound.after {x : MemoryIndex} (hx : x.Sound) {id : JobId} {c : Change}
    (hc : c.Spares id) : (x.after c).Sound ∧
      ((x.after c).roster.get? id).map Job.unmarked = (x.roster.get? id).map Job.unmarked := by
  unfold Index.after
  split
  · rename_i y hy
    exact ⟨hx.perform hc hy, hc.record hx hy⟩
  · exact ⟨hx, rfl⟩

/-! ## 3. How far a script goes -/

namespace Script

/-- The number of attempts that a script takes: up to the first step that is not transient.  If
there is none, one for each step, but at least one. -/
def attempts (s : Script) : Nat :=
  match s.steps.findIdx? (· != .transient) with
  | some i => i + 1
  | none => s.limit

/-- The outcome of the last of them: that of the first step that is not transient, where breaking
off is as fatal as a defect.  If there is none, the attempts are used up, but a script without steps
succeeds. -/
def outcome (s : Script) : Outcome :=
  match s.steps.find? (· != .transient) with
  | some step => step.outcome.getD .fatalFailure
  | none => if s.steps.isEmpty then .success else .failure

variable {s : Script} {n : Nat}

/-- There is a first step that is not transient, and it is the last that is performed, or all are
transient. -/
theorem course (s : Script) :
    (∃ i, ∃ h : i < s.steps.length, s.attempts = i + 1 ∧ s.steps[i] ≠ .transient ∧
        (∀ k, (hk : k < i) → s.steps[k] = .transient) ∧
        s.outcome = s.steps[i].outcome.getD .fatalFailure) ∨
      s.attempts = s.limit ∧ (∀ step ∈ s.steps, step = .transient) ∧
        s.outcome = if s.steps.isEmpty then .success else .failure := by
  cases hidx : s.steps.findIdx? (· != .transient) with
  | some i =>
    obtain ⟨hi, hstep, hbefore⟩ := List.findIdx?_eq_some_iff_getElem.mp hidx
    have hfind : s.steps.find? (· != .transient) = some s.steps[i] :=
      List.find?_eq_some_iff_getElem.mpr ⟨hstep, i, hi, rfl, by simpa using hbefore⟩
    refine .inl ⟨i, hi, ?_, by simpa using hstep, by simpa using hbefore, ?_⟩
    · rw [attempts, hidx]
    · rw [outcome, hfind]
  | none =>
    have hall : ∀ step ∈ s.steps, step = .transient := by
      simpa using List.findIdx?_eq_none_iff.mp hidx
    have hfind : s.steps.find? (· != .transient) = none := by
      simpa [List.find?_eq_none] using hall
    refine .inr ⟨?_, hall, ?_⟩
    · rw [attempts, hidx]
    · rw [outcome, hfind]

theorem attempts_pos (s : Script) : 0 < s.attempts := by
  rcases s.course with ⟨i, -, hattempts, -⟩ | ⟨hattempts, -⟩
  · omega
  · unfold limit at hattempts
    omega

theorem attempts_le_limit (s : Script) : s.attempts ≤ s.limit := by
  rcases s.course with ⟨i, hi, hattempts, -⟩ | ⟨hattempts, -⟩
  · unfold limit
    omega
  · exact hattempts.le

theorem step_eq_getElem (h : n < s.steps.length) : s.step n = s.steps[n] :=
  List.getD_eq_getElem _ _ h

/-- The outcome of an attempt that is not the last. -/
theorem result_of_lt (h : n + 1 < s.attempts) : s.result n = .retry := by
  have hlimit := s.attempts_le_limit
  have hlen : n + 1 < s.steps.length := by
    unfold limit at hlimit
    omega
  have hstep : s.step n = .transient := by
    rw [step_eq_getElem (by omega)]
    rcases s.course with ⟨i, hi, hattempts, -, hbefore, -⟩ | ⟨-, hall, -⟩
    · exact hbefore n (by omega)
    · exact hall _ (List.getElem_mem _)
  rw [result, hstep]
  exact if_pos hlen

theorem result_last (s : Script) : s.result (s.attempts - 1) = s.outcome := by
  rcases s.course with ⟨i, hi, hattempts, hne, -, houtcome⟩ | ⟨hattempts, hall, houtcome⟩
  · rw [hattempts, Nat.add_sub_cancel, houtcome, result, step_eq_getElem hi]
    cases hs : s.steps[i] <;> simp_all [Step.outcome]
  · rw [hattempts, houtcome, result]
    cases hlen : s.steps.length with
    | zero =>
      have hsteps : s.steps = [] := List.length_eq_zero_iff.mp hlen
      simp [step, hsteps]
    | succ len =>
      have hlast : s.limit - 1 < s.steps.length := by
        unfold limit
        omega
      have hstep : s.step (s.limit - 1) = .transient := by
        rw [step_eq_getElem hlast]
        exact hall _ (List.getElem_mem _)
      have hsteps : s.steps.isEmpty = false := by
        rw [List.isEmpty_eq_false_iff, ← List.length_pos_iff_ne_nil]
        omega
      rw [hstep, hsteps]
      exact if_neg (by unfold limit; omega)

theorem outcome_ne_retry (s : Script) : s.outcome ≠ .retry := by
  rcases s.course with ⟨i, hi, -, hne, -, houtcome⟩ | ⟨-, -, houtcome⟩
  · rw [houtcome]
    cases hs : s.steps[i] <;> simp_all [Step.outcome]
  · rw [houtcome]
    split <;> simp

theorem result_eq_retry_iff (h : n < s.attempts) : s.result n = .retry ↔ n + 1 < s.attempts := by
  refine ⟨fun hretry => ?_, result_of_lt⟩
  by_contra hlast
  obtain rfl : n = s.attempts - 1 := by omega
  exact s.outcome_ne_retry (s.result_last.symm.trans hretry)

end Script

/-! ## 4. Whole plays -/

/-- The number of the attempt that an entry announces. -/
def Entry.attempt? : Entry → Option Int32
  | ran _ attempt => some attempt
  | _ => none

namespace Scripted

variable {id : JobId} {s : Script}

theorem Awaits.of_unmarked {n : Nat} {j k : Job} (h : Awaits id s n j)
    (hk : k.unmarked = j.unmarked) : Awaits id s n k where
  id := (congrArg Job.id hk).trans h.id
  factory := (congrArg Job.factory hk).trans h.factory
  lifespan := (congrArg Job.lifespan hk).trans h.lifespan
  attempt := (congrArg Job.attempt hk).trans h.attempt
  maxAttempts := (congrArg Job.maxAttempts hk).trans h.maxAttempts
  payload := (congrArg Job.payload hk).trans h.payload

/-- A play of `asked` attempts, the first of which is attempt `n`. -/
structure Played (id : JobId) (s : Script) (n asked : Nat) (d : Desk (Switched Tables))
    (left : List Verdict × Desk (Switched Tables)) : Prop where
  verdicts : left.1 = ((List.range' n (s.attempts - n)).take asked).map fun k => .done (s.result k)
  journal : Journal.about id left.2.notes = Journal.about id d.notes ++
    ((List.range' n (s.attempts - n)).take asked).flatMap (s.trace id)
  sound : left.2.index.Sound
  gone : left.2.index.roster.get? id = none ↔ s.attempts ≤ n + asked

/-- Once the job is gone, it stays away. -/
theorem play_gone : ∀ (legs : List Leg) {d : Desk (Switched Tables)}, d.index.Sound →
    d.index.roster.get? id = none → (∀ leg ∈ legs, leg.Fair id) →
    (d.play id legs).1 = [] ∧ (d.play id legs).2.notes = d.notes ∧
      (d.play id legs).2.index.Sound ∧ (d.play id legs).2.index.roster.get? id = none
  | [], _, hd, hgone, _ => ⟨rfl, rfl, hd, hgone⟩
  | .change c :: rest, d, hd, hgone, hlegs => by
    obtain ⟨hc, hrest⟩ := List.forall_mem_cons.mp hlegs
    obtain ⟨hsound, hrecord⟩ := hd.after hc
    rw [hgone] at hrecord
    exact play_gone rest (d := { d with index := d.index.after c }) hsound
      (Option.map_eq_none_iff.mp hrecord) hrest
  | .attempt round :: rest, d, hd, hgone, hlegs => by
    simp only [Desk.play, hgone]
    exact play_gone rest hd hgone (List.forall_mem_cons.mp hlegs).2

/-- Until then, each attempt takes it one step further. -/
theorem play_awaiting (hlen : s.steps.length < 2 ^ 31) :
    ∀ (legs : List Leg) {d : Desk (Switched Tables)} {j : Job} {n : Nat}, d.index.Sound →
      d.index.roster.get? id = some j → Awaits id s n j → n < s.attempts →
      (∀ leg ∈ legs, leg.Fair id) →
      Played id s n (legs.countP Leg.isAttempt) d (d.play id legs)
  | [], d, j, n, hd, hj, _, hn, _ => by
    refine ⟨rfl, by simp [Desk.play], hd, ?_⟩
    simp only [Desk.play, hj, List.countP_nil]
    constructor
    · rintro ⟨⟩
    · omega
  | .change c :: rest, d, j, n, hd, hj, h, hn, hlegs => by
    obtain ⟨hc, hrest⟩ := List.forall_mem_cons.mp hlegs
    obtain ⟨hsound, hrecord⟩ := hd.after hc
    rw [hj] at hrecord
    obtain ⟨k, hk, hsame⟩ := Option.map_eq_some_iff.mp hrecord
    have hcount : (Leg.change c :: rest).countP Leg.isAttempt = rest.countP Leg.isAttempt :=
      List.countP_cons_of_neg Bool.false_ne_true
    have hplayed := play_awaiting hlen rest (d := { d with index := d.index.after c }) hsound hk
      (h.of_unmarked hsame) hn hrest
    rw [hcount]
    exact ⟨hplayed.verdicts, hplayed.journal, hplayed.sound, hplayed.gone⟩
  | .attempt round :: rest, d, j, n, hd, hj, h, hn, hlegs => by
    obtain ⟨hround, hrest⟩ := List.forall_mem_cons.mp hlegs
    obtain ⟨d', hexec, hsound, hjournal, hagain, hgone⟩ := executed hround hlen hd hj h
      (lt_of_lt_of_le hn s.attempts_le_limit) round.began round.ended
    have hrange : List.range' n (s.attempts - n)
        = n :: List.range' (n + 1) (s.attempts - (n + 1)) := by
      rw [← List.range'_succ]
      congr 1
      omega
    have hcount : (Leg.attempt round :: rest).countP Leg.isAttempt
        = rest.countP Leg.isAttempt + 1 := List.countP_cons_of_pos rfl
    simp only [Desk.play, hj, hexec, hcount]
    by_cases hlast : n + 1 < s.attempts
    · obtain ⟨k, hk, hnext⟩ := hagain ((s.result_eq_retry_iff hn).mpr hlast)
      have hplayed := play_awaiting hlen rest hsound hk hnext hlast hrest
      refine ⟨?_, ?_, hplayed.sound, ?_⟩
      · rw [hplayed.verdicts, hrange, List.take_succ_cons, List.map_cons]
      · rw [hplayed.journal, hjournal, hrange, List.take_succ_cons, List.flatMap_cons,
          List.append_assoc]
      · rw [hplayed.gone]
        omega
    · have hnone := hgone (mt (s.result_eq_retry_iff hn).mp hlast)
      obtain ⟨hverdicts, hnotes, hsound', hgone'⟩ := play_gone rest hsound hnone hrest
      have hend : s.attempts - (n + 1) = 0 := by omega
      refine ⟨?_, ?_, hsound', ?_⟩
      · rw [hverdicts, hrange, hend]
        simp
      · rw [hnotes, hjournal, hrange, hend]
        simp
      · simp only [hgone', true_iff]
        omega

/-- Every attempt but the last asks for another one. -/
theorem map_result_range (s : Script) :
    (List.range s.attempts).map (fun k => Verdict.done (s.result k))
      = List.replicate (s.attempts - 1) (.done .retry) ++ [.done s.outcome] := by
  obtain ⟨last, hlast⟩ : ∃ last, s.attempts = last + 1 :=
    ⟨s.attempts - 1, by have := s.attempts_pos; omega⟩
  have hretry : (List.range last).map (fun k => Verdict.done (s.result k))
      = List.replicate last (.done .retry) := by
    rw [List.eq_replicate_iff]
    refine ⟨by simp, fun v hv => ?_⟩
    obtain ⟨k, hk, rfl⟩ := List.mem_map.mp hv
    rw [s.result_of_lt (by rw [hlast]; exact Nat.succ_lt_succ (List.mem_range.mp hk))]
  have houtcome := s.result_last
  rw [hlast, Nat.add_sub_cancel] at houtcome
  rw [hlast, List.range_succ, List.map_append, hretry, Nat.add_sub_cancel, List.map_singleton,
    houtcome]

/-- The attempts are numbered from 0. -/
theorem attempts_of_trace (id : JobId) (s : Script) (asked : Nat) :
    ((List.range asked).flatMap (s.trace id)).filterMap Entry.attempt?
      = (List.range asked).map Int32.ofNat := by
  have htrace : ∀ n, (s.trace id n).filterMap Entry.attempt? = [Int32.ofNat n] := by
    intro n
    rw [Script.trace]
    cases s.step n <;> cases (s.result n).isFailure <;> rfl
  rw [List.filterMap_flatMap, List.map_eq_flatMap]
  exact List.flatMap_congr fun n _ => htrace n

theorem failed_trace (id : JobId) (s : Script) (n : Nat) :
    Journal.failed (s.trace id n) = if (s.result n).isFailure then [id] else [] := by
  rw [Script.trace]
  cases s.step n <;> cases (s.result n).isFailure <;> rfl

/-- The job is told once that it is given up, at its last attempt and unless that succeeds. -/
theorem failed_of_trace (id : JobId) (s : Script) {asked : Nat} (h : asked ≤ s.attempts) :
    Journal.failed ((List.range asked).flatMap (s.trace id))
      = if asked = s.attempts ∧ s.outcome ≠ .success then [id] else [] := by
  have hbefore : ∀ m, m < s.attempts →
      Journal.failed ((List.range m).flatMap (s.trace id)) = [] := by
    intro m hm
    rw [Journal.failed, List.filterMap_flatMap, List.flatMap_eq_nil_iff]
    intro n hn
    have hretry := s.result_of_lt (n := n) (by have := List.mem_range.mp hn; omega)
    rw [← Journal.failed, failed_trace, hretry]
    rfl
  rcases Nat.lt_or_eq_of_le h with hlt | rfl
  · rw [hbefore asked hlt, if_neg (by omega)]
  · obtain ⟨last, hlast⟩ : ∃ last, s.attempts = last + 1 :=
      ⟨s.attempts - 1, by have := s.attempts_pos; omega⟩
    have houtcome := s.result_last
    rw [hlast, Nat.add_sub_cancel] at houtcome
    have hfirst := hbefore last (by omega)
    rw [Journal.failed] at hfirst
    rw [hlast, List.range_succ, List.flatMap_append, Journal.failed, List.filterMap_append, hfirst,
      List.nil_append, List.flatMap_singleton, ← Journal.failed, failed_trace, houtcome]
    have hne := s.outcome_ne_retry
    cases ho : s.outcome <;> simp_all [Outcome.isFailure]

/-- **A script is played to its end.**  The job is stored with a script and attempted any number of
times, by any runners that know scripts and with any changes in between that leave it alone,
restarts on the same store among them.  Every attempt but the last asks for another one, and the
last ends as the script says; then the job is gone, and not before.  Its journal shows the attempts
numbered from 0, and that it was told once that it is given up, unless it succeeded. -/
theorem played_out {x : MemoryIndex} (hx : Matched x.roster x.stored) {batch : List Submission}
    {d : Desk (Switched Tables)} (hins : x.insert batch = .ok d.index) {id : JobId}
    {created : Int64} {s : Script}
    (hjob : job id created s.steps s.backoffMillis ∈ batch.map Submission.job)
    (hlen : s.steps.length < 2 ^ 31) {legs : List Leg} (hlegs : ∀ leg ∈ legs, leg.Fair id) :
    (d.play id legs).1 = (List.replicate (s.attempts - 1) (Verdict.done .retry) ++
        [Verdict.done s.outcome]).take (legs.countP Leg.isAttempt) ∧
      (¬Held (d.play id legs).2.index.roster.jobs id ∧
          ¬Held (d.play id legs).2.index.stored.jobs id ↔
        s.attempts ≤ legs.countP Leg.isAttempt) ∧
      ∃ entries, Journal.about id (d.play id legs).2.notes = Journal.about id d.notes ++ entries ∧
        entries.filterMap Entry.attempt?
          = (List.range (min (legs.countP Leg.isAttempt) s.attempts)).map Int32.ofNat ∧
        Journal.failed entries =
          if s.attempts ≤ legs.countP Leg.isAttempt ∧ s.outcome ≠ .success then [id] else [] := by
  have hins' := hins
  obtain ⟨-, hon, hd, hindex⟩ := Index.insert_eq_ok_iff.mp hins'
  have hsound : d.index.Sound := ⟨hx.perform (c := .insert batch) hins, by rw [hindex]; exact hon⟩
  have hmem : job id created s.steps s.backoffMillis ∈ d.index.roster.jobs := by
    rw [hindex, Index.roster_holding, Roster.jobs_insert]
    exact List.mem_append_right _ hjob
  have hget : d.index.roster.get? id = some (job id created s.steps s.backoffMillis) :=
    hsound.matched.get?_eq_some_iff.mpr ⟨hmem, rfl⟩
  obtain ⟨hverdicts, hjournal, hleft, hgone⟩ :=
    play_awaiting hlen legs hsound hget (awaits_job id created s) s.attempts_pos hlegs
  rw [Nat.sub_zero, ← List.range_eq_range'] at hverdicts hjournal
  rw [Nat.zero_add, Roster.get?_eq_none_iff] at hgone
  refine ⟨?_, ?_, _, hjournal, ?_, ?_⟩
  · rw [hverdicts, ← map_result_range, List.map_take]
  · rw [← hgone, ← hleft.matched.held_iff, and_self]
  · rw [List.take_range, attempts_of_trace]
  · rw [List.take_range, failed_of_trace id s (Nat.min_le_right _ _)]
    congr 2
    simp

/-- A script with a step that is never performed. -/
def shaky : Script := { steps := [.transient, .panic, .succeed], backoffMillis := 10 }

def shakyId : JobId := ⟨"shaky"⟩

def shakyBatch : List Submission := [{ job := job shakyId 1 shaky.steps shaky.backoffMillis }]

def shakyDesk : Desk (Switched Tables) :=
  { index := (Index.fresh .runToCompletion).after (.insert shakyBatch) }

/-- The job is attempted twice, with a restart in between. -/
def shakyLegs : List Leg :=
  let runner : Runner := { registry := ⟨[(factory, decoder)]⟩, cascade := true }
  [.change (.setRunning shakyId true), .attempt ⟨runner, { now := 1 }, { now := 2 }⟩,
    .change (.reopen .pipelined), .change .clearRunning,
    .change (.setRunning shakyId true), .attempt ⟨runner, { now := 20 }, { now := 20 }⟩]

theorem played_out_shaky :
    Matched (Index.fresh .runToCompletion).roster (Index.fresh .runToCompletion).stored ∧
      (Index.fresh .runToCompletion).insert shakyBatch = .ok shakyDesk.index ∧
      job shakyId 1 shaky.steps shaky.backoffMillis ∈ shakyBatch.map Submission.job ∧
      shaky.steps.length < 2 ^ 31 ∧ (∀ leg ∈ shakyLegs, leg.Fair shakyId) ∧
      (shakyDesk.play shakyId shakyLegs).1 = [.done .retry, .done .fatalFailure] ∧
      ¬Held (shakyDesk.play shakyId shakyLegs).2.index.stored.jobs shakyId ∧
      ∃ entries, Journal.about shakyId (shakyDesk.play shakyId shakyLegs).2.notes = entries ∧
        entries.filterMap Entry.attempt? = [0, 1] ∧ Journal.failed entries = [shakyId] := by
  have hm : Matched (Index.fresh .runToCompletion).roster (Index.fresh .runToCompletion).stored :=
    Matched.empty
  have hins : (Index.fresh .runToCompletion).insert shakyBatch = .ok shakyDesk.index :=
    Index.perform_eq_after (x := .fresh .runToCompletion) (c := .insert shakyBatch)
      (by decide)
  have hjob : job shakyId 1 shaky.steps shaky.backoffMillis ∈ shakyBatch.map Submission.job :=
    List.mem_singleton_self _
  have hlegs : ∀ leg ∈ shakyLegs, leg.Fair shakyId := by
    simp only [shakyLegs, List.forall_mem_cons]
    exact ⟨trivial, Runner.plays_of_registry rfl, trivial, trivial, trivial,
      Runner.plays_of_registry rfl, by simp⟩
  obtain ⟨hverdicts, hgone, entries, hjournal, hattempts, hfailed⟩ :=
    played_out hm hins hjob (by decide) hlegs
  exact ⟨hm, hins, hjob, by decide, hlegs, hverdicts, (hgone.mpr (by decide)).2, entries, hjournal,
    hattempts, hfailed⟩

end Scripted

end Backlog
