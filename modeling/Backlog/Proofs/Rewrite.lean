/-
# A record that is rewritten while its job runs

A runner works with the record that it was handed.  Meanwhile somebody else may rewrite the stored
one.  Recording a retry then changes four fields of the record that is stored and leaves the others
as they were rewritten.  Of the four, the payload is what the job saved; a job that saves nothing is
meant to keep the stored payload, but the one that is written back is that of the record in hand.

* `Runner.executeAmid`: an attempt during which the index is changed;
* `Index.mem_of_amend`: after a rewrite, the last of the new records with an id is the one that is
  stored under it;
* `Runner.executeAmid_retried`: a retry changes four fields of whatever record is stored by then;
* `Runner.retry_rewritten`: **what a retry leaves of a rewritten record**, and that the payload
  stays rewritten exactly if it was not changed;
* `Runner.rewrite_lost`: a payload that is lost.
-/
import Backlog.Proofs.Dispatch.Steps

namespace Backlog

/-! ## 1. Which record is stored after a rewrite -/

namespace Roster

variable {r : Roster} {k : Job}

@[simp] theorem map_id_replace (r : Roster) (j : Job) :
    (r.replace j).jobs.map Job.id = r.jobs.map Job.id :=
  map_modifyFirst_of_keeps fun i hi => by simpa using (beq_iff_eq.mp hi).symm

theorem mem_replace_iff (hu : (r.jobs.map Job.id).Nodup) {j : Job} :
    k ∈ (r.replace j).jobs ↔ k = j ∧ Held r.jobs j.id ∨ k ∈ r.jobs ∧ k.id ≠ j.id := by
  rw [replace, modifyFirst_id_eq_map hu, List.mem_map]
  constructor
  · rintro ⟨i, hi, rfl⟩
    by_cases hid : i.id = j.id
    · rw [if_pos hid]
      exact .inl ⟨rfl, List.mem_map.mpr ⟨i, hi, hid⟩⟩
    · rw [if_neg hid]
      exact .inr ⟨hi, hid⟩
  · rintro (⟨rfl, hheld⟩ | ⟨hk, hid⟩)
    · obtain ⟨i, hi, hid⟩ := List.mem_map.mp hheld
      exact ⟨i, hi, if_pos hid⟩
    · exact ⟨k, hk, if_neg hid⟩

theorem map_id_foldl_replace : ∀ (jobs : List Job) (r : Roster),
    (jobs.foldl replace r).jobs.map Job.id = r.jobs.map Job.id
  | [], _ => rfl
  | j :: rest, r => (map_id_foldl_replace rest (r.replace j)).trans (map_id_replace r j)

/-- A record stays while others are replaced. -/
theorem mem_foldl_replace : ∀ {jobs : List Job} {r : Roster}, (r.jobs.map Job.id).Nodup →
    k ∈ r.jobs → (∀ j ∈ jobs, j.id ≠ k.id) → k ∈ (jobs.foldl replace r).jobs
  | [], _, _, hk, _ => hk
  | j :: rest, r, hu, hk, hother => by
    have hkept : k ∈ (r.replace j).jobs :=
      (mem_replace_iff hu).mpr (.inr ⟨hk, (hother j List.mem_cons_self).symm⟩)
    rw [List.foldl_cons]
    exact mem_foldl_replace (by rwa [map_id_replace]) hkept fun i hi =>
      hother i (List.mem_cons_of_mem _ hi)

theorem mem_foldl_replace_last (hu : (r.jobs.map Job.id).Nodup) (hk : Held r.jobs k.id)
    {front rest : List Job} (hrest : ∀ j ∈ rest, j.id ≠ k.id) :
    k ∈ ((front ++ k :: rest).foldl replace r).jobs := by
  have hids := map_id_foldl_replace front r
  have hu' : ((front.foldl replace r).jobs.map Job.id).Nodup := hids ▸ hu
  rw [List.foldl_append, List.foldl_cons]
  refine mem_foldl_replace (by rwa [map_id_replace]) ?_ hrest
  exact (mem_replace_iff hu').mpr (.inl ⟨rfl, by rwa [Held, hids]⟩)

end Roster

variable {σ : Type} [Storage σ] [Tabular σ]

namespace Index

variable {x y : Index σ}

theorem amend_matched {jobs : List Job} (hm : Matched x.roster x.stored)
    (h : x.amend jobs = .ok y) : Matched y.roster y.stored := by
  obtain ⟨-, hy⟩ := amend_eq_ok_iff.mp (amend_onTables h)
  obtain ⟨hroster, hstored⟩ := eq_of_onTables hy
  rw [hroster, hstored]
  exact Matched.amend _ hm

/-- The last of the new records with an id is stored, if one was. -/
theorem mem_of_amend {k : Job} {front rest : List Job} (hm : Matched x.roster x.stored)
    (hk : Held x.roster.jobs k.id) (hrest : ∀ j ∈ rest, j.id ≠ k.id)
    (h : x.amend (front ++ k :: rest) = .ok y) : k ∈ y.roster.jobs := by
  obtain ⟨-, hy⟩ := amend_eq_ok_iff.mp (amend_onTables h)
  have hknown : x.roster.contains k.id = true := Roster.contains_iff.mpr hk
  rw [(eq_of_onTables hy).1, roster_onTables, List.filter_append, List.filter_cons, if_pos hknown]
  exact Roster.mem_foldl_replace_last hm.roster_unique hk fun j hj =>
    hrest j (List.mem_of_mem_filter hj)

end Index

/-! ## 2. Attempts meanwhile -/

namespace Runner

omit [Tabular σ] in
/-- `Runner.executeBetween` with an index that is changed after the job was taken and before its
outcome is recorded. -/
def executeAmid (r : Runner) (began ended : Moment) (change : Index σ → Index σ) (j : Job)
    (d : Desk σ) : Verdict × Desk σ :=
  match r.start began j d with
  | (.inl verdict, d) => (verdict, d)
  | (.inr b, d) =>
    r.conclude ended j b
      ({ d with index := change d.index }.jot (b.attempt.opening ++ b.attempt.closing))

omit [Tabular σ] in
theorem executeBetween_eq_executeAmid (r : Runner) (began ended : Moment) (j : Job) (d : Desk σ) :
    r.executeBetween began ended j d = r.executeAmid began ended id j d := rfl

variable {r : Runner} {began ended : Moment} {j k : Job} {d d' : Desk σ}

/-! ## 3. What a retry leaves -/

/-- Whatever happened to the index meanwhile, a retry changes four fields of the record `k` that is
stored by then. -/
theorem executeAmid_retried {change : Index σ → Index σ}
    (hm : Matched (change d.index).roster (change d.index).stored)
    (hk : k ∈ (change d.index).roster.jobs) (hid : k.id = j.id)
    (hv : r.executeAmid began ended change j d = (.done .retry, d')) :
    ∃ b saved, r.Attempts began j b ∧ b.outcome = some .retry ∧ b.spent.saved = .ok saved ∧
      Recorded (change d.index) d'.index
        { k with running := false, attempt := succClamped j.attempt,
                 due := r.nextDue ended j b.spent, payload := saved.getD j.payload } := by
  unfold executeAmid at hv
  cases hstart : r.start began j d with
  | mk left started =>
    rw [hstart] at hv
    cases left with
    | inl v =>
      obtain ⟨rfl, rfl⟩ := Prod.mk.inj hv
      obtain ⟨fatal, reason, outcome, hout, hdown⟩ := start_eq_inl hstart
      exact absurd rfl (hdown.ne_retry hout)
    | inr b =>
      obtain ⟨hb, rfl⟩ := start_eq_inr hstart
      cases concluded_of_conclude hv with
      | retried ho hsaved hres =>
        exact ⟨b, _, hb, ho, hsaved, Index.reschedule_recorded hm hk (hid ▸ hres)⟩
      | fell _ hout hdown => exact absurd rfl (hdown.ne_retry hout)

/-- **What a retry leaves of a record that was rewritten meanwhile.**  The flag, the attempts, the
due time and the payload are those of the retry, and all else is as it was rewritten.  So if the job
saved nothing, the payload is still the rewritten one exactly if that was the payload of the record
in hand. -/
theorem retry_rewritten {y : Index σ} {front rest : List Job}
    (hm : Matched d.index.roster d.index.stored) (hj : j ∈ d.index.roster.jobs) (hk : k.id = j.id)
    (hrest : ∀ i ∈ rest, i.id ≠ j.id) (hy : d.index.amend (front ++ k :: rest) = .ok y)
    (hv : r.executeAmid began ended (fun _ => y) j d = (.done .retry, d')) :
    ∃ b saved, r.Attempts began j b ∧ b.outcome = some .retry ∧ b.spent.saved = .ok saved ∧
      k ∈ y.stored.jobs ∧
      Recorded y d'.index
        { k with running := false, attempt := succClamped j.attempt,
                 due := r.nextDue ended j b.spent, payload := saved.getD j.payload } ∧
      (saved = none → ∀ s ∈ d'.index.stored.jobs, s.id = j.id →
        (s.payload = k.payload ↔ k.payload = j.payload)) := by
  have hheld : Held d.index.roster.jobs k.id := hk ▸ List.mem_map.mpr ⟨j, hj, rfl⟩
  have hmy : Matched y.roster y.stored := Index.amend_matched hm hy
  have hky : k ∈ y.roster.jobs := Index.mem_of_amend hm hheld (hk ▸ hrest) hy
  obtain ⟨b, saved, hb, hout, hsaved, hrec⟩ := executeAmid_retried hmy hky hk hv
  refine ⟨b, saved, hb, hout, hsaved, hmy.mem_iff.mp hky, hrec, ?_⟩
  rintro rfl s hs hid
  have hsame : s = _ :=
    List.inj_on_of_nodup_map (hrec.matched hmy).unique hs hrec.kept.2 (hid.trans hk.symm)
  rw [hsame]
  exact eq_comm

/-- Whose jobs ask for another attempt and save nothing. -/
def forgetful : Runner :=
  let behaviour : Behaviour :=
    { attempt := { ending := .raised (.transient "down") }
      fresh := { backoff := some (.fixed 5) } }
  { registry := { decoders := [("http", fun _ _ => .ok behaviour)] } }

/-- A job that was handed out without a payload gets one, and stays marked. -/
def furnished : Job := { handedOut with payload := ⟨#[7]⟩ }

def furnishedIndex : MemoryIndex := handedOutDesk.index.after (.amend [furnished])

theorem amend_furnished : handedOutDesk.index.amend [furnished] = .ok furnishedIndex :=
  Index.perform_eq_after (x := handedOutDesk.index) (c := .amend [furnished]) rfl

/-- What is left on the desk when its attempt is over. -/
def furnishedDesk : Desk (Switched Tables) :=
  (forgetful.executeAmid { now := 7 } { now := 9 } (fun _ => furnishedIndex) handedOut
    handedOutDesk).2

theorem execute_furnished :
    forgetful.executeAmid { now := 7 } { now := 9 } (fun _ => furnishedIndex) handedOut
      handedOutDesk = (.done .retry, furnishedDesk) := rfl

/-- The payload is gone, as the job had none when it was handed out. -/
theorem retry_rewritten_furnished :
    Matched handedOutDesk.index.roster handedOutDesk.index.stored ∧
      handedOut ∈ handedOutDesk.index.roster.jobs ∧ furnished.id = handedOut.id ∧
      handedOutDesk.index.amend ([] ++ furnished :: []) = .ok furnishedIndex ∧
      forgetful.executeAmid { now := 7 } { now := 9 } (fun _ => furnishedIndex) handedOut
        handedOutDesk = (.done .retry, furnishedDesk) ∧
      furnished ∈ furnishedIndex.stored.jobs ∧
      ∃ due, Recorded furnishedIndex furnishedDesk.index
        { furnished with running := false, attempt := 1, due, payload := handedOut.payload } := by
  have hm : Matched handedOutDesk.index.roster handedOutDesk.index.stored := matched_run _ _
  have hjobs : handedOutDesk.index.roster.jobs = [handedOut] := by cbv
  have hj : handedOut ∈ handedOutDesk.index.roster.jobs := hjobs ▸ List.mem_singleton.mpr rfl
  have hid : furnished.id = handedOut.id := rfl
  have hy : handedOutDesk.index.amend ([] ++ furnished :: []) = .ok furnishedIndex :=
    amend_furnished
  obtain ⟨b, saved, hb, -, hsaved, hstored, hrec, -⟩ :=
    retry_rewritten hm hj hid (fun _ hi => absurd hi List.not_mem_nil) hy execute_furnished
  obtain rfl : _ = b := Except.ok.inj hb.2
  obtain rfl : none = saved := Except.ok.inj hsaved
  exact ⟨hm, hj, hid, hy, execute_furnished, hstored, _, hrec⟩

/-- A job that saves nothing need not keep the stored payload. -/
theorem rewrite_lost :
    ¬∀ (r : Runner) (began ended : Moment) (j k : Job) (b : Behaviour)
      (d d' : Desk (Switched Tables)) (y : MemoryIndex), Reachable d.index →
      j ∈ d.index.roster.jobs → j.running = true → k.id = j.id → k.running = true →
      d.index.amend [k] = .ok y → r.Attempts began j b → b.spent.saved = .ok none →
      r.executeAmid began ended (fun _ => y) j d = (.done .retry, d') →
        ∀ s ∈ d'.index.stored.jobs, s.id = j.id → s.payload = k.payload := by
  intro h
  have hreach : Reachable handedOutDesk.index := reachable_run _ (by decide)
  have hjobs : handedOutDesk.index.roster.jobs = [handedOut] := by cbv
  have hj : handedOut ∈ handedOutDesk.index.roster.jobs := hjobs ▸ List.mem_singleton.mpr rfl
  have hleft : furnishedDesk.index.stored.jobs.map (fun s => (s.id, s.payload))
      = [(handedOut.id, handedOut.payload)] := rfl
  have hall := h forgetful { now := 7 } { now := 9 } handedOut furnished _ handedOutDesk
    furnishedDesk furnishedIndex hreach hj rfl rfl rfl amend_furnished ⟨rfl, rfl⟩ rfl
    execute_furnished
  obtain ⟨s, hs, hpair⟩ := List.mem_map.mp (hleft ▸ List.mem_singleton.mpr rfl)
  obtain ⟨hid, hpayload⟩ := Prod.mk.inj hpair
  exact absurd (hpayload.symm.trans (hall s hs hid)) (by decide)

end Runner

end Backlog
