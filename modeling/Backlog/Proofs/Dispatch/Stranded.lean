/-
# Who is left behind with a running flag

A job gets its running flag when it is handed out, and loses it when the outcome of the attempt is
recorded: it is deleted, or it rests until it is due again.  If that write is refused, the attempt
is over all the same and the flag stays where it is.  Looking for work passes over whatever is
marked, so such a job is left behind until the next start.

* `Dispatch.Turn`, `Dispatch.Watched`: the steps of a dispatcher that is handed resting jobs, with a
  list of the jobs whose outcome was refused;
* `Dispatch.Tracked`: a job that is marked is in flight or on the list, and whoever is on the list
  is stored, marked, and not in flight;
* `Dispatch.Tracked.issue`, `Dispatch.Tracked.settle`: what handing a job out and the end of an
  attempt do to that; `Dispatch.Tracked.turn`: the step lemma, and `Dispatch.tracked_of_watched`,
  the run lemma;
* `Dispatch.marked_iff`: **a stored job is marked exactly if it is in flight or on the list**, those
  on the list are never looked at again, and a new start finds every job and none marked;
* `Dispatch.stranded`: a job that is left behind although the store takes writes again.
-/
import Backlog.Proofs.Dispatch.InFlight

namespace Backlog

variable {σ : Type} [Storage σ] [Tabular σ]

/-! ## 1. Tickets have numbers of their own -/

namespace Dispatch

/-- No two tickets have one number, and those that are yet to come have none of theirs. -/
structure Numbered (d : Dispatch σ) : Prop where
  distinct : (d.inFlight.map Ticket.number).Nodup
  below : ∀ t ∈ d.inFlight, t.number < d.issued

namespace Numbered

variable {d d' : Dispatch σ}

omit [Storage σ] [Tabular σ]

theorem of_sublist (h : d.Numbered) (hf : d'.inFlight.Sublist d.inFlight)
    (hissued : d'.issued = d.issued) : d'.Numbered where
  distinct := h.distinct.sublist (hf.map _)
  below t ht := hissued ▸ h.below t (hf.subset ht)

theorem issue (h : d.Numbered) (index : Index σ) (j : Job) : (d.issue index j).Numbered where
  distinct := by
    simp only [Dispatch.issue, List.map_append, List.map_cons, List.map_nil]
    refine List.nodup_append.mpr ⟨h.distinct, List.nodup_singleton _, ?_⟩
    rintro _ hold _ hnew rfl
    obtain ⟨t, ht, hnumber⟩ := List.mem_map.mp hold
    have hlt := h.below t ht
    rw [List.mem_singleton] at hnew
    omega
  below t ht := by
    show t.number < d.issued + 1
    rcases List.mem_append.mp ht with ht | ht
    · have hlt := h.below t ht
      omega
    · rw [List.mem_singleton.mp ht]
      exact Nat.lt_succ_self _

/-- Taking a ticket back leaves all the others. -/
theorem mem_collect (h : d.Numbered) {t u : Ticket} (ht : t ∈ d.inFlight) :
    u ∈ (d.collect t).inFlight ↔ u ∈ d.inFlight ∧ u ≠ t := by
  simp only [collect, List.mem_filter, decide_eq_true_eq]
  refine and_congr_right fun hu => not_congr ⟨fun hnumber => ?_, fun heq => heq ▸ rfl⟩
  exact List.inj_on_of_nodup_map h.distinct hu ht hnumber

end Numbered

end Dispatch

/-! ## 2. Turns -/

/-- Whom the end of an attempt leaves behind: the job, if its outcome could not be written. -/
def Verdict.lost (id : JobId) : Verdict → List JobId
  | refused _ => [id]
  | _ => []

theorem Verdict.lost_eq_nil {v : Verdict} (hv : ∀ cause, v ≠ .refused cause) (id : JobId) :
    v.lost id = [] := by
  cases v with
  | refused cause => exact absurd rfl (hv cause)
  | done | panicked => rfl

namespace Dispatch

/-- A step of a dispatcher whose failures do not cascade and that is handed resting jobs, with whom
it leaves behind. -/
inductive Turn (workers : Nat) : Dispatch σ → List JobId → Dispatch σ → Prop
  | enqueue {batch : List Submission} {d d' : Dispatch σ} :
    (∀ s ∈ batch, s.job.running = false) → d.enqueue batch = .ok d' → Turn workers d [] d'
  | pass (now : Int64) (c : Conditions) (d : Dispatch σ) :
    Turn workers d [] (d.pass workers now c)
  /-- An attempt begins. -/
  | launch {r : Runner} (m : Moment) {t : Ticket} {b : Behaviour} {d d' : Dispatch σ} :
    r.cascade = false → t ∈ d.inFlight → d.launch r m t = (.inr b, d') → Turn workers d [] d'
  /-- There is no attempt to be made. -/
  | giveUp {r : Runner} (m : Moment) {t : Ticket} {v : Verdict} {d d' : Dispatch σ} :
    r.cascade = false → t ∈ d.inFlight → d.launch r m t = (.inl v, d') →
    Turn workers d (v.lost t.job.id) d'
  /-- An attempt ends. -/
  | finish {r : Runner} (m : Moment) {t : Ticket} (b : Behaviour) {v : Verdict}
    {d d' : Dispatch σ} : r.cascade = false → t ∈ d.inFlight → d.finish r m t b = (v, d') →
    Turn workers d (v.lost t.job.id) d'
  /-- The store changes its mind about what it refuses. -/
  | stir {d : Dispatch σ} {store : σ} : Tabular.tables store = d.desk.index.stored →
    Turn workers d [] (d.on store)

variable {workers : Nat} {lost new : List JobId} {d d' : Dispatch σ}

theorem Turn.step (h : Turn workers d new d') : Step workers false d d' := by
  cases h with
  | enqueue _ hd => exact .enqueue hd
  | pass now c => exact .pass now c d
  | launch m hr ht hd | giveUp m hr ht hd =>
    have hleft : _ = d' := congrArg Prod.snd hd
    exact hleft ▸ .launch m hr ht
  | finish m b hr ht hd =>
    have hleft : _ = d' := congrArg Prod.snd hd
    exact hleft ▸ .finish m b hr ht
  | stir hs => exact .stir hs

/-- The states of a dispatcher after a start, with everybody that was left behind since. -/
inductive Watched (workers : Nat) : List JobId → Dispatch σ → Prop
  | start {x y : Index σ} : Matched x.roster x.stored → x.clearRunning = .ok y →
    Watched workers [] { desk := { index := y } }
  | turn {lost new : List JobId} {d d' : Dispatch σ} : Watched workers lost d →
    Turn workers d new d' → Watched workers (lost ++ new) d'

theorem Watched.running (h : Watched workers lost d) : Running workers false d := by
  induction h with
  | start hm hy => exact .start hm hy
  | turn _ hd ih => exact .step ih hd.step

/-! ## 3. The invariant -/

/-- A job that is marked is in flight or was left behind; whoever was left behind is stored, marked,
and not in flight. -/
structure Tracked (workers : Nat) (lost : List JobId) (d : Dispatch σ) : Prop where
  exclusive : d.Exclusive workers
  numbered : d.Numbered
  covered : ∀ j ∈ d.desk.index.roster.jobs, j.running = true →
    (∃ t ∈ d.inFlight, t.job.id = j.id) ∨ j.id ∈ lost
  kept : ∀ id ∈ lost, ∃ j ∈ d.desk.index.roster.jobs, j.id = id ∧ j.running = true
  idle : ∀ id ∈ lost, ∀ t ∈ d.inFlight, t.job.id ≠ id

namespace Tracked

/-- Whoever rests was not left behind. -/
theorem notMem_of_resting (h : Tracked workers lost d) {j : Job}
    (hj : j ∈ d.desk.index.roster.jobs) (hrest : j.running = false) : j.id ∉ lost := by
  intro hlost
  obtain ⟨k, hk, hid, hrun⟩ := h.kept _ hlost
  have hkj : k = j := List.inj_on_of_nodup_map h.exclusive.matched.roster_unique hk hj hid
  rw [hkj, hrest] at hrun
  exact absurd hrun (by simp)

/-- It is enough that the same tickets are out and that nobody is marked who was not. -/
theorem of_inFlight_eq (h : Tracked workers lost d) (he : d'.Exclusive workers)
    (hf : d'.inFlight = d.inFlight) (hissued : d'.issued = d.issued)
    (hkept : ∀ j ∈ d.desk.index.roster.jobs, j ∈ d'.desk.index.roster.jobs)
    (hmarked : ∀ j ∈ d'.desk.index.roster.jobs, j.running = true →
      j ∈ d.desk.index.roster.jobs) : Tracked workers lost d' where
  exclusive := he
  numbered := h.numbered.of_sublist (hf ▸ .refl _) hissued
  covered j hj hrun := hf ▸ h.covered j (hmarked j hj hrun) hrun
  kept id hid :=
    have ⟨j, hj, hjid, hrun⟩ := h.kept id hid
    ⟨j, hkept j hj, hjid, hrun⟩
  idle id hid t ht := h.idle id hid t (hf ▸ ht)

/-- A job that rests is handed out: it is marked and in flight. -/
theorem issue (h : Tracked workers lost d) (hfree : d.inFlight.length < workers) {j : Job}
    (hj : j ∈ d.desk.index.roster.jobs) (hrest : j.running = false) {index : Index σ}
    (hrec : Recorded d.desk.index index { j with running := true }) :
    Tracked workers lost (d.issue index j) where
  exclusive := h.exclusive.issue hfree hj hrest hrec
  numbered := h.numbered.issue index j
  covered k hk hrun := by
    rcases hrec.mem_iff.mp hk with rfl | ⟨hk, -⟩
    · exact .inl ⟨_, List.mem_append_right _ (List.mem_singleton.mpr rfl), rfl⟩
    · exact (h.covered k hk hrun).imp_left fun ⟨t, ht, hid⟩ => ⟨t, List.mem_append_left _ ht, hid⟩
  kept id hid := by
    obtain ⟨k, hk, rfl, hrun⟩ := h.kept id hid
    have hkj : k.id ≠ j.id := fun heq => h.notMem_of_resting hj hrest (heq ▸ hid)
    exact ⟨k, hrec.mem hk hkj, rfl, hrun⟩
  idle id hid t ht := by
    rcases List.mem_append.mp ht with ht | ht
    · exact h.idle id hid t ht
    · rw [List.mem_singleton.mp ht]
      rintro rfl
      exact h.notMem_of_resting hj hrest hid

theorem pass (h : Tracked workers lost d) (now : Int64) (c : Conditions) :
    Tracked workers lost (d.pass workers now c) :=
  pass_induction now c (fun h => h.exclusive.matched)
    (fun h hfree _ hj hrest hrec => h.issue hfree hj hrest hrec) h

/-! ## 4. The end of an attempt -/

/-- A ticket is taken back.  Its job is gone, or rests, or is left behind; nobody else is
touched. -/
theorem collect (h : Tracked workers lost d) {t : Ticket} (ht : t ∈ d.inFlight) {desk : Desk σ}
    (he : ({ d with desk }.collect t).Exclusive workers)
    (hothers : ∀ k ∈ d.desk.index.roster.jobs, k.id ≠ t.job.id → k ∈ desk.index.roster.jobs)
    (hmarked : ∀ k ∈ desk.index.roster.jobs, k.running = true →
      k ∈ d.desk.index.roster.jobs ∧ (k.id = t.job.id → t.job.id ∈ new))
    (hnew : ∀ id ∈ new, id = t.job.id ∧ t.job ∈ desk.index.roster.jobs) :
    Tracked workers (lost ++ new) ({ d with desk }.collect t) := by
  have hcollect : ∀ {u : Ticket}, u ∈ ({ d with desk }.collect t).inFlight ↔
      u ∈ d.inFlight ∧ u ≠ t := h.numbered.mem_collect ht
  refine ⟨he, h.numbered.of_sublist List.filter_sublist rfl, fun k hk hrun => ?_, fun id hid => ?_,
    fun id hid u hu => ?_⟩
  · obtain ⟨hk, hself⟩ := hmarked k hk hrun
    by_cases hkt : k.id = t.job.id
    · exact .inr (List.mem_append_right _ (hkt ▸ hself hkt))
    · rcases h.covered k hk hrun with ⟨u, hu, huk⟩ | hlost
      · have hut : u ≠ t := fun heq => hkt (huk.symm.trans (heq ▸ rfl))
        exact .inl ⟨u, hcollect.mpr ⟨hu, hut⟩, huk⟩
      · exact .inr (List.mem_append_left _ hlost)
  · rcases List.mem_append.mp hid with hid | hid
    · obtain ⟨k, hk, rfl, hrun⟩ := h.kept id hid
      exact ⟨k, hothers k hk fun heq => h.idle _ hid t ht heq.symm, rfl, hrun⟩
    · obtain ⟨rfl, hmem⟩ := hnew id hid
      exact ⟨t.job, hmem, rfl, (h.exclusive.marked t ht).2⟩
  · obtain ⟨hu, hut⟩ := hcollect.mp hu
    rcases List.mem_append.mp hid with hid | hid
    · exact h.idle id hid u hu
    · obtain ⟨rfl, -⟩ := hnew id hid
      exact fun heq => hut (List.inj_on_of_nodup_map h.exclusive.distinct hu ht heq)

/-- The job of the ticket is left behind exactly if its outcome was refused. -/
theorem settle (h : Tracked workers lost d) {r : Runner} (hr : r.cascade = false) {t : Ticket}
    (ht : t ∈ d.inFlight) {v : Verdict} {desk : Desk σ}
    (hended : r.Ended t.job d.desk.index v desk.index) :
    Tracked workers (lost ++ v.lost t.job.id) ({ d with desk }.collect t) := by
  have he := h.exclusive.settle hr ht hended.settled
  have hmem := (h.exclusive.marked t ht).1
  obtain ⟨index, events, notes⟩ := desk
  have hfallen : r.fallen d.desk.index t.job = [] := by simp [Runner.fallen, hr]
  cases hended with
  | refused =>
    refine h.collect ht he (fun _ hk _ => hk) (fun k hk _ => ⟨hk, fun _ => ?_⟩) fun id hid => ?_
    · exact List.mem_singleton.mpr rfl
    · exact ⟨List.mem_singleton.mp hid, hmem⟩
  | dropped hv hor hdrop =>
    rw [hfallen, or_self] at hor
    subst hor
    rw [Verdict.lost_eq_nil hv]
    refine h.collect ht he (fun k hk hid => hdrop.mem hk (by simpa using hid)) (fun k hk _ => ?_)
      (by simp)
    obtain ⟨hk, hid⟩ := hdrop.mem_iff.mp hk
    exact ⟨hk, fun heq => absurd (List.mem_singleton.mpr heq) hid⟩
  | again hrec hid hrest =>
    refine h.collect ht he (fun k hk hne => hrec.mem hk (hid ▸ hne)) (fun k hk hrun => ?_)
      (by simp [Verdict.lost])
    rcases hrec.mem_iff.mp hk with rfl | ⟨hk, hne⟩
    · exact absurd (hrest.symm.trans hrun) (by simp)
    · exact ⟨hk, fun heq => absurd (heq.trans hid.symm) hne⟩

/-! ## 5. Every turn -/

theorem enqueue (h : Tracked workers lost d) {batch : List Submission}
    (hrest : ∀ s ∈ batch, s.job.running = false) (hd : d.enqueue batch = .ok d') :
    Tracked workers lost d' := by
  have he := h.exclusive.enqueue hd
  obtain ⟨index, hins, rfl⟩ := enqueue_eq_ok hd
  have hjobs := Index.jobs_of_insert hins
  refine h.of_inFlight_eq he rfl rfl (fun j hj => ?_) fun j hj hrun => ?_
  · exact hjobs ▸ List.mem_append_left _ hj
  · rcases List.mem_append.mp (hjobs ▸ hj) with hj | hj
    · exact hj
    · obtain ⟨s, hs, rfl⟩ := List.mem_map.mp hj
      exact absurd ((hrest s hs).symm.trans hrun) (by simp)

theorem turn (h : Tracked workers lost d) (hd : Turn workers d new d') :
    Tracked workers (lost ++ new) d' := by
  have he := h.exclusive.step hd.step
  cases hd with
  | enqueue hrest hd =>
    rw [List.append_nil]
    exact h.enqueue hrest hd
  | pass now c =>
    rw [List.append_nil]
    exact h.pass now c
  | @launch r m t b _ _ hr ht hd =>
    rw [List.append_nil]
    obtain ⟨desk, hstart, rfl⟩ := launch_eq_inr hd
    have hindex := Runner.index_of_start hstart
    refine h.of_inFlight_eq he rfl rfl (fun j hj => ?_) fun j hj _ => ?_
    · show j ∈ desk.index.roster.jobs
      rwa [hindex]
    · rwa [← hindex]
  | @giveUp r m t v _ _ hr ht hd =>
    obtain ⟨desk, hstart, rfl⟩ := launch_eq_inl hd
    exact h.settle hr ht (Runner.start_ended hstart)
  | @finish r m t b v _ _ hr ht hd =>
    cases hd
    exact h.settle hr ht
      (Runner.conclude_ended h.exclusive.matched (h.exclusive.marked t ht).1 b)
  | stir hs =>
    rw [List.append_nil]
    exact h.of_inFlight_eq he rfl rfl (fun _ hj => hj) fun _ hj _ => hj

end Tracked

theorem tracked_of_watched (h : Watched workers lost d) : Tracked workers lost d := by
  induction h with
  | @start x y hm hy =>
    have he : Exclusive workers { desk := { index := y } } := exclusive_of_running (.start hm hy)
    refine ⟨he, ⟨List.nodup_nil, by simp⟩, fun j hj hrun => ?_, by simp, by simp⟩
    obtain ⟨-, hy⟩ := Index.clearRunning_eq_ok_iff.mp (Index.clearRunning_onTables hy)
    have hroster : y.roster = x.roster.clearRunning := (Index.eq_of_onTables hy).1
    obtain ⟨k, -, rfl⟩ := List.mem_map.mp (show j ∈ x.roster.clearRunning.jobs from hroster ▸ hj)
    exact absurd hrun (by simp)
  | turn _ hd ih => exact ih.turn hd

/-! ## 6. Until the next start -/

/-- A start on what is stored finds every job, and none of them marked. -/
theorem resting_of_start {x y z : Index σ} {disc : Discipline} (hm : Matched x.roster x.stored)
    (hopen : Index.open x.store disc = .ok y) (hclear : y.clearRunning = .ok z) :
    Matched y.roster y.stored ∧
      (∀ j ∈ x.roster.jobs, { j with running := false } ∈ z.roster.jobs) ∧
      ∀ k ∈ z.roster.jobs, k.running = false := by
  have hy : Matched y.roster y.stored := Index.matched_of_open hm.unique hopen
  have hstored : y.stored = x.stored := congrArg Tabular.tables (Index.store_of_open hopen)
  obtain ⟨-, hz⟩ := Index.clearRunning_eq_ok_iff.mp (Index.clearRunning_onTables hclear)
  have hjobs : z.roster.jobs = y.roster.jobs.map fun j => { j with running := false } := by
    rw [(Index.eq_of_onTables hz).1]
    rfl
  refine ⟨hy, fun j hj => ?_, fun k hk => ?_⟩
  · rw [hjobs]
    exact List.mem_map.mpr ⟨j, hy.mem_iff.mpr (hstored ▸ hm.mem_iff.mp hj), rfl⟩
  · obtain ⟨j, -, rfl⟩ := List.mem_map.mp (hjobs ▸ hk)
    rfl

/-- **Who is marked as running.**  In every state after a start, whatever is enqueued and however
attempts end, and whichever writes the store refuses: a stored job is marked exactly if it is in
flight or its outcome was refused.  A job whose outcome was refused is stored, marked and not in
flight, and no look for work comes across it.  A new start on the same store finds it at rest, as it
finds every job. -/
theorem marked_iff (h : Watched workers lost d) :
    (∀ j ∈ d.desk.index.roster.jobs,
      j.running = true ↔ (∃ t ∈ d.inFlight, t.job = j) ∨ j.id ∈ lost) ∧
    (∀ id ∈ lost, (∀ t ∈ d.inFlight, t.job.id ≠ id) ∧ ∃ j ∈ d.desk.index.roster.jobs,
      j ∈ d.desk.index.stored.jobs ∧ j.id = id ∧ j.running = true ∧
        ∀ now disc, j ∉ d.desk.index.roster.eligible now disc) ∧
    ∀ disc y z, Index.open d.desk.index.store disc = .ok y → y.clearRunning = .ok z →
      Watched workers [] { desk := { index := z } } ∧
        (∀ j ∈ d.desk.index.roster.jobs, { j with running := false } ∈ z.roster.jobs) ∧
        ∀ k ∈ z.roster.jobs, k.running = false := by
  have htracked := tracked_of_watched h
  have hm := htracked.exclusive.matched
  refine ⟨fun j hj => ⟨fun hrun => ?_, ?_⟩, fun id hid => ?_, fun disc y z hopen hclear => ?_⟩
  · refine (htracked.covered j hj hrun).imp_left fun ⟨t, ht, hid⟩ => ⟨t, ht, ?_⟩
    exact List.inj_on_of_nodup_map hm.roster_unique (htracked.exclusive.marked t ht).1 hj hid
  · rintro (⟨t, ht, rfl⟩ | hlost)
    · exact (htracked.exclusive.marked t ht).2
    · by_contra hrest
      exact htracked.notMem_of_resting hj (by simpa using hrest) hlost
  · obtain ⟨j, hj, hjid, hrun⟩ := htracked.kept id hid
    refine ⟨htracked.idle id hid, j, hj, hm.mem_iff.mp hj, hjid, hrun, fun now disc hel => ?_⟩
    have hrest := (Roster.mem_eligible_iff.mp hel).2.1
    exact absurd (hrest.symm.trans hrun) (by simp)
  · obtain ⟨hy, hfound, hresting⟩ := resting_of_start hm hopen hclear
    exact ⟨.start hy hclear, hfound, hresting⟩

/-- One job, and a runner whose jobs are done at the first attempt. -/
def errand : Job := { id := ⟨"errand"⟩, factory := "http", created := 1 }

def done : Behaviour := { attempt := { ending := .finished } }

def prompt : Runner := { registry := { decoders := [("http", fun _ _ => .ok done)] } }

/-- The job once it is handed out, and the ticket that it gets. -/
def sentErrand : Job := { errand with running := true }

def errandTicket : Ticket := ⟨0, sentErrand⟩

/-- A dispatcher with this one job, on a store that refuses writes or not. -/
def withErrand (j : Job) (refusing : Bool) (events : List Event) (inFlight : List Ticket)
    (issued : Nat) : Dispatch (Switched Tables) where
  desk := { index := { store := { inner := { jobs := [j] }, refusing }, roster := { jobs := [j] } }
            events }
  inFlight
  issued

/-- It has been handed out, its attempt was a success, and writes were refused meanwhile. -/
def stranded : Dispatch (Switched Tables) :=
  withErrand sentErrand false [.enqueued errand.id "http", .started errand.id 0] [] 1

theorem watched_stranded : Watched 1 [errand.id] stranded := by
  let enqueued : List Event := [.enqueued errand.id "http"]
  let started : List Event := [.enqueued errand.id "http", .started errand.id 0]
  have hclear : (Index.fresh .runToCompletion).clearRunning = .ok (.fresh .runToCompletion) := rfl
  have henqueue : enqueue [{ job := errand }] { desk := { index := .fresh .runToCompletion } }
      = .ok (withErrand errand false enqueued [] 0) := rfl
  have hpass : (withErrand errand false enqueued [] 0).pass 1 100 {}
      = withErrand sentErrand false enqueued [errandTicket] 1 := by cbv
  have hlaunch : launch prompt { now := 100 } errandTicket
      (withErrand sentErrand false enqueued [errandTicket] 1)
      = (.inr done, withErrand sentErrand false started [errandTicket] 1) := rfl
  have hfinish : finish prompt { now := 120 } errandTicket done
      (withErrand sentErrand true started [errandTicket] 1)
      = (.refused (.store (.refused .delete)), withErrand sentErrand true started [] 1) := rfl
  have hin : errandTicket ∈ [errandTicket] := List.mem_singleton.mpr rfl
  have hstart : Watched 1 [] { desk := { index := Index.fresh .runToCompletion } } :=
    .start .empty hclear
  have hready := hstart.turn (.enqueue (by decide) henqueue)
  have hsent := hready.turn (.pass 100 {} _)
  rw [hpass] at hsent
  have hbegun := hsent.turn (.launch _ rfl hin hlaunch)
  have hrefusing : Watched 1 [] (withErrand sentErrand true started [errandTicket] 1) :=
    hbegun.turn (.stir rfl)
  have hended := hrefusing.turn (.finish _ done rfl hin hfinish)
  have hstir : Turn 1 (withErrand sentErrand true started [] 1) [] stranded := .stir rfl
  exact hended.turn hstir

/-- The store takes writes again, but nobody asks for this one. -/
theorem marked_stranded :
    Watched 1 [errand.id] stranded ∧ stranded.inFlight = [] ∧
      (stranded.pass 1 200 {}).inFlight = [] ∧
      (∀ j ∈ stranded.desk.index.roster.jobs,
        j.running = true ↔ (∃ t ∈ stranded.inFlight, t.job = j) ∨ j.id ∈ [errand.id]) ∧
      ∀ disc y z, Index.open stranded.desk.index.store disc = .ok y → y.clearRunning = .ok z →
        ∀ k ∈ z.roster.jobs, k.running = false := by
  obtain ⟨hmarked, -, hstart⟩ := marked_iff watched_stranded
  refine ⟨watched_stranded, rfl, by cbv, hmarked, fun disc y z hopen hclear => ?_⟩
  exact (hstart disc y z hopen hclear).2.2

/-- Being marked does not mean being in flight. -/
theorem stranded_not_in_flight :
    ¬∀ (workers : Nat) (lost : List JobId) (d : Dispatch (Switched Tables)),
      Watched workers lost d → ∀ j ∈ d.desk.index.roster.jobs, j.running = true →
        ∃ t ∈ d.inFlight, t.job = j := by
  intro h
  obtain ⟨t, ht, -⟩ := h 1 [errand.id] stranded watched_stranded sentErrand
    (List.mem_singleton.mpr rfl) rfl
  exact absurd ht (List.not_mem_nil)

end Dispatch

end Backlog
