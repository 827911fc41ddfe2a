/-
# No job is in flight twice

A job is handed out only while it rests, and being handed out is what sets its running flag.  So two
attempts of one job never overlap, as long as the flag of a job in flight stays set.  Nobody but the
attempt itself clears it or deletes the job, if failures do not cascade: that is the invariant.

* `Dispatch.Exclusive`: the jobs in flight differ from each other, there are no more of them than
  workers, and each is stored and marked as running;
* `Dispatch.handOut_induction`: what handing out one job keeps, a look for work keeps, whichever
  writes are refused;
* `Dispatch.Exclusive.issue`, `Dispatch.Exclusive.settle`: handing a job out keeps that, and so does
  the end of an attempt, whatever it comes to;
* `Dispatch.Exclusive.step`: the step lemma, and `Dispatch.exclusive_of_running`, the run lemma.
-/
import Backlog.Proofs.Dispatch.Steps
import Backlog.Proofs.Heads
import Mathlib

namespace Backlog

variable {σ : Type} [Storage σ] [Tabular σ]

namespace Dispatch

/-! ## 1. One look for work -/

/-- Jobs that rest are handed out one after the other.  None of them is met twice, so the flags that
were set on the way do not matter to those that are still to come: whatever is kept when one job
that rests, and that is one of those to be handed out, is handed out is kept by the whole look. -/
theorem handOut_induction {workers : Nat} {P : Dispatch σ → Prop} {Q : Job → Prop} (c : Conditions)
    (hmatched : ∀ {d}, P d → Matched d.desk.index.roster d.desk.index.stored)
    (hissue : ∀ {d j index}, P d → d.inFlight.length < workers → Q j →
      j ∈ d.desk.index.roster.jobs → j.running = false →
        Recorded d.desk.index index { j with running := true } → P (d.issue index j)) :
    ∀ (jobs : List Job) {d : Dispatch σ}, P d → (jobs.map Job.id).Nodup →
      (∀ j ∈ jobs, Q j ∧ j ∈ d.desk.index.roster.jobs ∧ j.running = false) →
        P (d.handOut workers c jobs)
  | [], _, h, _, _ => h
  | j :: rest, d, h, hu, hrest => by
    obtain ⟨hj, hu⟩ := List.nodup_cons.mp hu
    have htail : ∀ k ∈ rest, Q k ∧ k ∈ d.desk.index.roster.jobs ∧ k.running = false :=
      fun k hk => hrest k (List.mem_cons_of_mem _ hk)
    obtain ⟨hjq, hjmem, hjrest⟩ := hrest j List.mem_cons_self
    unfold Dispatch.handOut
    split
    · exact handOut_induction c hmatched hissue rest h hu htail
    · split
      · exact h
      · rename_i hfree
        cases hset : d.desk.index.setRunning j.id true with
        | error cause => exact handOut_induction c hmatched hissue rest h hu htail
        | ok index =>
          have hrec := Index.setRunning_recorded (hmatched h) hjmem hset
          have hnext := hissue h (Nat.lt_of_not_le hfree) hjq hjmem hjrest hrec
          refine handOut_induction c hmatched hissue rest hnext hu fun k hk => ?_
          obtain ⟨hkq, hkmem, hkrest⟩ := htail k hk
          have hkj : k.id ≠ j.id := fun hid => hj (hid ▸ List.mem_map.mpr ⟨k, hk, rfl⟩)
          exact ⟨hkq, hrec.mem hkmem hkj, hkrest⟩

theorem pass_induction {workers : Nat} {P : Dispatch σ → Prop} {d : Dispatch σ} (now : Int64)
    (c : Conditions) (hmatched : ∀ {d}, P d → Matched d.desk.index.roster d.desk.index.stored)
    (hissue : ∀ {e j index}, P e → e.inFlight.length < workers → j ∈ d.desk.index.eligible now →
      j ∈ e.desk.index.roster.jobs → j.running = false →
        Recorded e.desk.index index { j with running := true } → P (e.issue index j)) (h : P d) :
    P (d.pass workers now c) :=
  handOut_induction c hmatched hissue _ h
    (Roster.nodup_ids_eligible (hmatched h).roster_unique now _) fun _ hj =>
      have hel := Roster.mem_eligible_iff.mp hj
      ⟨hj, hel.1, hel.2.1⟩

section

variable {d : Dispatch σ}

omit [Storage σ] [Tabular σ]

theorem nodup_ids_issue (h : (d.inFlight.map fun t => t.job.id).Nodup) {index : Index σ} {j : Job}
    (hother : ∀ t ∈ d.inFlight, t.job.id ≠ j.id) :
    ((d.issue index j).inFlight.map fun t => t.job.id).Nodup := by
  simp only [Dispatch.issue, List.map_append, List.map_cons, List.map_nil]
  refine List.nodup_append.mpr ⟨h, List.nodup_singleton _, ?_⟩
  rintro _ hmem _ hnew rfl
  obtain ⟨t, ht, hid⟩ := List.mem_map.mp hmem
  exact hother t ht (hid.trans (List.mem_singleton.mp hnew))

theorem id_ne_of_mem_collect (h : (d.inFlight.map fun t => t.job.id).Nodup) {t u : Ticket}
    (ht : t ∈ d.inFlight) (hu : u ∈ (d.collect t).inFlight) : u.job.id ≠ t.job.id := by
  intro hid
  obtain ⟨hu, hnumber⟩ := List.mem_filter.mp hu
  have hut : u = t := List.inj_on_of_nodup_map h hu ht hid
  simp [hut] at hnumber

end

/-! ## 2. The invariant -/

/-- The jobs in flight differ from each other, there are no more of them than workers, and each is
stored and marked as running. -/
structure Exclusive (workers : Nat) (d : Dispatch σ) : Prop where
  matched : Matched d.desk.index.roster d.desk.index.stored
  distinct : (d.inFlight.map fun t => t.job.id).Nodup
  bounded : d.inFlight.length ≤ workers
  marked : ∀ t ∈ d.inFlight, t.job ∈ d.desk.index.roster.jobs ∧ t.job.running = true

namespace Exclusive

variable {workers : Nat} {d d' : Dispatch σ}

/-- It is enough that the jobs that are still in flight are still there. -/
theorem of_sublist (h : d.Exclusive workers) (hf : d'.inFlight.Sublist d.inFlight)
    (hm : Matched d'.desk.index.roster d'.desk.index.stored)
    (hkept : ∀ t ∈ d'.inFlight, t.job ∈ d.desk.index.roster.jobs →
      t.job ∈ d'.desk.index.roster.jobs) : d'.Exclusive workers where
  matched := hm
  distinct := h.distinct.sublist (hf.map _)
  bounded := Nat.le_trans hf.length_le h.bounded
  marked t ht :=
    have hold := h.marked t (hf.subset ht)
    ⟨hkept t ht hold.1, hold.2⟩

/-- A job that rests is not in flight. -/
theorem notMem_of_resting (h : d.Exclusive workers) {j : Job} (hj : j ∈ d.desk.index.roster.jobs)
    (hrest : j.running = false) : ∀ t ∈ d.inFlight, t.job.id ≠ j.id := by
  intro t ht hid
  obtain ⟨hmem, hrun⟩ := h.marked t ht
  have htj : t.job = j := List.inj_on_of_nodup_map h.matched.roster_unique hmem hj hid
  rw [htj, hrest] at hrun
  exact absurd hrun (by simp)

/-! ## 3. Handing a job out -/

/-- One job is handed out. -/
theorem issue (h : d.Exclusive workers) (hfree : d.inFlight.length < workers) {j : Job}
    (hj : j ∈ d.desk.index.roster.jobs) (hrest : j.running = false) {index : Index σ}
    (hrec : Recorded d.desk.index index { j with running := true }) :
    (d.issue index j).Exclusive workers := by
  have hother : ∀ t ∈ d.inFlight, t.job.id ≠ j.id := h.notMem_of_resting hj hrest
  refine ⟨hrec.matched h.matched, ?_, ?_, fun t ht => ?_⟩
  · exact nodup_ids_issue h.distinct hother
  · simp only [Dispatch.issue, List.length_append, List.length_singleton]
    omega
  · rcases List.mem_append.mp ht with ht | ht
    · obtain ⟨hmem, hrun⟩ := h.marked t ht
      exact ⟨hrec.mem hmem (hother t ht), hrun⟩
    · obtain rfl := List.mem_singleton.mp ht
      exact ⟨hrec.kept.1, rfl⟩

theorem pass (h : d.Exclusive workers) (now : Int64) (c : Conditions) :
    (d.pass workers now c).Exclusive workers :=
  pass_induction now c matched (fun h hfree _ hj hrest hrec => h.issue hfree hj hrest hrec) h

/-! ## 4. The end of an attempt -/

/-- The job of the ticket may be gone or have another record; the others in flight are untouched. -/
theorem settle (h : d.Exclusive workers) {r : Runner} (hr : r.cascade = false) {t : Ticket}
    (ht : t ∈ d.inFlight) {desk : Desk σ} (hs : r.Settled t.job d.desk.index desk.index) :
    ({ d with desk }.collect t).Exclusive workers := by
  obtain ⟨index, events, notes⟩ := desk
  have hother : ∀ u ∈ (d.collect t).inFlight, u.job.id ≠ t.job.id := fun _ =>
    id_ne_of_mem_collect h.distinct ht
  have hfallen : r.fallen d.desk.index t.job = [] := by simp [Runner.fallen, hr]
  cases hs with
  | untouched => exact h.of_sublist List.filter_sublist h.matched fun _ _ hmem => hmem
  | dropped hor hdrop =>
    refine h.of_sublist List.filter_sublist (hdrop.matched h.matched) fun u hu hmem => ?_
    refine hdrop.mem hmem ?_
    rw [hfallen, or_self] at hor
    simpa [hor] using hother u hu
  | again hrec hid =>
    refine h.of_sublist List.filter_sublist (hrec.matched h.matched) fun u hu hmem => ?_
    exact hrec.mem hmem (hid ▸ hother u hu)

theorem launch (h : d.Exclusive workers) {r : Runner} (hr : r.cascade = false) (m : Moment)
    {t : Ticket} (ht : t ∈ d.inFlight) : (d.launch r m t).2.Exclusive workers := by
  cases hlaunch : d.launch r m t with
  | mk left d' =>
    cases left with
    | inl verdict =>
      obtain ⟨desk, hstart, rfl⟩ := launch_eq_inl hlaunch
      exact h.settle hr ht (Runner.start_ended hstart).settled
    | inr b =>
      obtain ⟨desk, hstart, rfl⟩ := launch_eq_inr hlaunch
      have hindex := Runner.index_of_start hstart
      refine h.of_sublist (.refl _) ?_ fun _ _ hmem => ?_
      · show Matched desk.index.roster desk.index.stored
        rw [hindex]
        exact h.matched
      · show _ ∈ desk.index.roster.jobs
        rw [hindex]
        exact hmem

theorem finish (h : d.Exclusive workers) {r : Runner} (hr : r.cascade = false) (m : Moment)
    {t : Ticket} (ht : t ∈ d.inFlight) (b : Behaviour) :
    (d.finish r m t b).2.Exclusive workers :=
  h.settle hr ht (Runner.conclude_settled h.matched (h.marked t ht).1 b)

/-! ## 5. Every step -/

theorem enqueue (h : d.Exclusive workers) {batch : List Submission}
    (hd : d.enqueue batch = .ok d') : d'.Exclusive workers := by
  obtain ⟨index, hins, rfl⟩ := enqueue_eq_ok hd
  have hins' := Index.insert_onTables hins
  have hm := h.matched.perform (c := .insert batch) hins'
  refine h.of_sublist (.refl _) hm fun t _ hmem => ?_
  show t.job ∈ index.roster.jobs
  rw [Index.jobs_of_insert hins]
  exact List.mem_append_left _ hmem

theorem stir (h : d.Exclusive workers) {store : σ}
    (hs : Tabular.tables store = d.desk.index.stored) : (d.on store).Exclusive workers := by
  refine h.of_sublist (.refl _) ?_ fun _ _ hmem => hmem
  show Matched d.desk.index.roster (Tabular.tables store)
  rw [hs]
  exact h.matched

theorem step (h : d.Exclusive workers) (hd : Step workers false d d') : d'.Exclusive workers := by
  cases hd with
  | enqueue hd => exact h.enqueue hd
  | pass now c => exact h.pass now c
  | launch m hr ht => exact h.launch hr m ht
  | finish m b hr ht => exact h.finish hr m ht b
  | jot => exact h.of_sublist (.refl _) h.matched fun _ _ hmem => hmem
  | cutOff => exact h.of_sublist (List.nil_sublist _) h.matched fun _ _ hmem => hmem
  | stir hs => exact h.stir hs

end Exclusive

theorem exclusive_of_running {workers : Nat} {d : Dispatch σ} (h : Running workers false d) :
    d.Exclusive workers := by
  induction h with
  | @start x y hm hy =>
    have hm' : Matched y.roster y.stored :=
      hm.perform (c := .clearRunning) (Index.clearRunning_onTables hy)
    exact ⟨hm', List.nodup_nil, Nat.zero_le _, by simp⟩
  | step _ hd ih => exact ih.step hd

/-- **No job is in flight twice.**  In every state of a dispatcher whose failures do not cascade,
whatever is enqueued, however attempts end or are cut off, and whichever writes the store refuses:
the jobs in flight differ from each other, there are no more of them than workers, and each is
marked as running in the roster and in the store. -/
theorem in_flight_once {workers : Nat} {d : Dispatch σ} (h : Running workers false d) :
    (d.inFlight.map fun t => t.job.id).Nodup ∧ d.inFlight.length ≤ workers ∧
      ∀ t ∈ d.inFlight, t.job.running = true ∧ t.job ∈ d.desk.index.roster.jobs ∧
        t.job ∈ d.desk.index.stored.jobs := by
  have he := exclusive_of_running h
  refine ⟨he.distinct, he.bounded, fun t ht => ?_⟩
  obtain ⟨hmem, hrun⟩ := he.marked t ht
  exact ⟨hrun, hmem, he.matched.mem_iff.mp hmem⟩

end Dispatch

/-! ## 6. A store that picks what it refuses -/

/-- Tables that refuse a write or not, as they please: it may depend on the kind of write and on the
jobs that it is about. -/
structure Picky where
  inner : Tables := {}
  refuses : WriteCall → List JobId → Bool := fun _ _ => false

namespace Picky

def guarded (s : Picky) (write : WriteCall) (ids : List JobId)
    (act : Tables → Except StoreError Tables) : Except StoreError Picky :=
  if s.refuses write ids then .error (.refused write)
  else (act s.inner).map fun t => { s with inner := t }

theorem guarded_ok {s s' : Picky} {write : WriteCall} {ids : List JobId}
    {act : Tables → Except StoreError Tables} (h : s.guarded write ids act = .ok s') :
    act s.inner = .ok s'.inner := by
  unfold guarded at h
  split at h
  · cases h
  · cases ha : act s.inner with
    | error e => rw [ha] at h; cases h
    | ok t => rw [ha] at h; cases h; rfl

theorem guarded_total {s s' : Picky} {write : WriteCall} {ids : List JobId} {act : Tables → Tables}
    (h : s.guarded write ids (fun t => .ok (act t)) = .ok s') : s'.inner = act s.inner := by
  have hact : (fun t => .ok (act t) : Tables → Except StoreError Tables) s.inner = .ok s'.inner :=
    guarded_ok h
  exact (Except.ok.inj hact).symm

instance : Storage Picky where
  load s := .ok s.inner.snapshot
  insert batch s := s.guarded .insert (batch.map Submission.id) (Tables.insert batch)
  setRunning id running s := s.guarded .setRunning [id] (Tables.setRunning id running)
  reschedule id running attempt due payload s :=
    s.guarded .reschedule [id] (Tables.reschedule id running attempt due payload)
  clearRunning s := s.guarded .clearRunning [] fun t => .ok t.clearRunning
  amend jobs s := s.guarded .amend (jobs.map Job.id) fun t => .ok (t.amend jobs)
  delete ids s := s.guarded .delete ids fun t => .ok (t.delete ids)

instance : Tabular Picky where
  tables := inner
  load_ok h := (Except.ok.inj h).symm
  insert_ok := guarded_ok
  setRunning_ok := guarded_ok
  reschedule_ok := guarded_ok
  clearRunning_ok := guarded_total
  amend_ok := guarded_total
  delete_ok := guarded_total

end Picky

namespace Dispatch

/-- Two jobs are enqueued, and the store refuses to mark the first one. -/
def snubbed : Job := { id := ⟨"snubbed"⟩, factory := "http", created := 1 }

def served : Job := { snubbed with id := ⟨"served"⟩, created := 2 }

def snubbing : Dispatch Picky :=
  { desk := { index :=
      { store := { inner := { jobs := [snubbed, served] }
                   refuses := fun write ids => write == .setRunning && ids.contains snubbed.id }
        roster := { jobs := [snubbed, served] } } } }

theorem running_snubbing : Running 2 false (snubbing.pass 2 100 {}) := by
  have hm : Matched snubbing.desk.index.roster snubbing.desk.index.stored :=
    ⟨(by decide : ([snubbed, served].map Job.id).Nodup), .refl _⟩
  exact .step (.start hm rfl) (.pass 100 {} snubbing)

/-- The look goes on with the next job, which is handed out alone. -/
theorem in_flight_snubbing :
    Running 2 false (snubbing.pass 2 100 {}) ∧
      ((snubbing.pass 2 100 {}).inFlight.map fun t => t.job.id).Nodup ∧
      (snubbing.pass 2 100 {}).inFlight.map (fun t => t.job) =
        [{ served with running := true }] := by
  have honce := in_flight_once running_snubbing
  exact ⟨running_snubbing, honce.1, by cbv⟩

end Dispatch

end Backlog
