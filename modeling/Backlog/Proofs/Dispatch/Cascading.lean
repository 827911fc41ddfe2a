/-
# Runs in which failures cascade

When a job is given up and failures cascade, whoever waits on it falls with it.  A row may name a
job that is yet to come, and holds nobody back until that job is there, so among those who fall may
be a job that is in flight.  It is gone from the index then, but its attempt goes on.

* `Dispatch.endings`: how often it was announced that a job is gone for good;
* `Dispatch.struck`: who is still in flight and has just been dropped from the index;
* `Dispatch.Move`, `Dispatch.Cascading`: the steps of a dispatcher whose failures cascade, with all
  ids that were accepted and all that were struck so far;
* `Dispatch.Caught`: whoever is in flight is stored and marked, unless it was struck; nobody who is
  stored was announced as gone, and whoever was struck has one announcement more to its account;
* `Caught.issue`, `Caught.ends`, `Caught.enqueue`: what each kind of step does to that;
* `Caught.move`: the step lemma, and `Dispatch.caught_of_cascading`, the run lemma.
-/
import Backlog.Proofs.Dispatch.Endings
import Backlog.Proofs.Dispatch.Stranded

namespace Backlog

open Relation

variable {σ : Type} [Storage σ] [Tabular σ]

/-! ## 1. Steps -/

namespace Dispatch

/-- How often it was announced that `id` is gone for good. -/
def endings (d : Dispatch σ) (id : JobId) : Nat := endingsIn d.desk.events id

/-- Who is in flight in `d'` although it was dropped from the index since `d`. -/
def struck (d d' : Dispatch σ) : List JobId :=
  (d'.inFlight.map fun t => t.job.id).filter fun id =>
    Held d.desk.index.roster.jobs id ∧ ¬Held d'.desk.index.roster.jobs id

/-- An attempt in flight ends, or turns out not to be made. -/
inductive Ends (r : Runner) (m : Moment) (t : Ticket) (d : Dispatch σ) :
    Option Behaviour → Verdict → Dispatch σ → Prop
  | unmade {v : Verdict} {d' : Dispatch σ} : d.launch r m t = (.inl v, d') → Ends r m t d none v d'
  | made {b : Behaviour} {v : Verdict} {d' : Dispatch σ} :
    d.finish r m t b = (v, d') → Ends r m t d (some b) v d'

/-- No row of a job in flight names a job of the batch, and no migration job of the batch has a
row. -/
def Unawaited (d : Dispatch σ) (batch : List Submission) : Prop :=
  (Change.insert batch).Unencumbered ∧
    ∀ t ∈ d.inFlight, ∀ e ∈ d.desk.index.stored.edges, e.job = t.job.id →
      e.waitsOn ∉ batch.map Submission.id

/-- A step of a dispatcher whose failures cascade and that gets no id twice, with the ids that it
brings and those that it strikes.  A `guarded` one takes a batch in only if nobody in flight waits
for it and no migration job in it has a row. -/
inductive Move (workers : Nat) (guarded : Bool) (accepted : List JobId) :
    Dispatch σ → List JobId → List JobId → Dispatch σ → Prop
  | enqueue {batch : List Submission} {d d' : Dispatch σ} : (∀ s ∈ batch, s.WellFormed) →
    (∀ s ∈ batch, s.id ∉ accepted) → (guarded = true → d.Unawaited batch) →
    d.enqueue batch = .ok d' → Move workers guarded accepted d (batch.map Submission.id) [] d'
  | pass (now : Int64) (c : Conditions) (d : Dispatch σ) :
    Move workers guarded accepted d [] [] (d.pass workers now c)
  /-- An attempt begins. -/
  | launch {r : Runner} {m : Moment} {t : Ticket} {b : Behaviour} {d d' : Dispatch σ} :
    r.cascade = true → t ∈ d.inFlight → d.launch r m t = (.inr b, d') →
    Move workers guarded accepted d [] [] d'
  | ends {r : Runner} {m : Moment} {t : Ticket} {ran : Option Behaviour} {v : Verdict}
    {d d' : Dispatch σ} : r.cascade = true → t ∈ d.inFlight → Ends r m t d ran v d' →
    Move workers guarded accepted d [] (d.struck d') d'

/-- The states of such a dispatcher after a start, with all that was accepted and all that was
struck.  To one that is guarded, no stored migration job may have a row at the start. -/
inductive Cascading (workers : Nat) (guarded : Bool) :
    List JobId → List JobId → Dispatch σ → Prop
  | start {x y : Index σ} : InStep x.roster x.stored → x.clearRunning = .ok y →
    (guarded = true → y.stored.Unencumbered) →
    Cascading workers guarded (y.roster.jobs.map Job.id) [] { desk := { index := y } }
  | move {accepted hit brought new : List JobId} {d d' : Dispatch σ} :
    Cascading workers guarded accepted hit d → Move workers guarded accepted d brought new d' →
    Cascading workers guarded (accepted ++ brought) (hit ++ new) d'

section

variable {r : Runner} {m : Moment} {t : Ticket} {ran : Option Behaviour} {v : Verdict}
  {d d' : Dispatch σ}

omit [Tabular σ] in
theorem Ends.concluded (h : Ends r m t d ran v d') : r.Concluded m t.job d.desk ran v d'.desk ∧
    d'.inFlight = (d.collect t).inFlight ∧ d'.issued = d.issued := by
  cases h with
  | unmade hd =>
    obtain ⟨desk, hstart, rfl⟩ := launch_eq_inl hd
    exact ⟨Runner.concluded_of_start hstart, rfl, rfl⟩
  | made hd =>
    cases hd
    exact ⟨Runner.conclude_concluded r m t.job _ d.desk, rfl, rfl⟩

omit [Storage σ] [Tabular σ] in
theorem mem_struck {id : JobId} : id ∈ d.struck d' ↔
    (∃ t ∈ d'.inFlight, t.job.id = id) ∧ Held d.desk.index.roster.jobs id ∧
      ¬Held d'.desk.index.roster.jobs id := by
  simp [struck]

end

/-! ## 2. The invariant -/

/-- Whoever is in flight is stored and marked, unless it was struck.  Nobody who is stored was
announced as gone; whoever is not was announced once at most, and once more if it was struck. -/
structure Caught (accepted hit : List JobId) (d : Dispatch σ) : Prop where
  inStep : InStep d.desk.index.roster d.desk.index.stored
  numbered : d.Numbered
  distinct : (d.inFlight.map fun t => t.job.id).Nodup
  marked : ∀ t ∈ d.inFlight, t.job.id ∉ hit →
    t.job ∈ d.desk.index.roster.jobs ∧ t.job.running = true
  gone : ∀ id ∈ hit, ¬Held d.desk.index.roster.jobs id
  known : ∀ id, Held d.desk.index.roster.jobs id ∨ id ∈ hit ∨ 0 < d.endings id → id ∈ accepted
  fresh : ∀ id, Held d.desk.index.roster.jobs id → d.endings id = 0
  once : ∀ id, id ∉ hit → d.endings id ≤ 1
  twice : ∀ id ∈ hit, d.endings id ≤ 2
  /-- Whoever was struck and is still in flight is yet to end on its own account. -/
  pending : ∀ t ∈ d.inFlight, t.job.id ∈ hit → d.endings t.job.id ≤ 1

namespace Caught

variable {accepted hit : List JobId} {d d' : Dispatch σ}

/-- If the job of a ticket is stored, it is stored as it was handed out. -/
theorem mem_of_held (h : d.Caught accepted hit) {t : Ticket} (ht : t ∈ d.inFlight)
    (hheld : Held d.desk.index.roster.jobs t.job.id) : t.job ∈ d.desk.index.roster.jobs :=
  (h.marked t ht fun hhit => h.gone _ hhit hheld).1

theorem settled (h : d.Caught accepted hit) {r : Runner} {m : Moment} {t : Ticket}
    {ran : Option Behaviour} {v : Verdict} (ht : t ∈ d.inFlight) (hends : Ends r m t d ran v d') :
    r.Settled t.job d.desk.index d'.desk.index :=
  (hends.concluded.1.ended h.inStep.matched (h.mem_of_held ht)).settled

theorem mem_accepted (h : d.Caught accepted hit) {t : Ticket} (ht : t ∈ d.inFlight) :
    t.job.id ∈ accepted := by
  refine h.known _ ?_
  by_cases hhit : t.job.id ∈ hit
  · exact .inr (.inl hhit)
  · exact .inl (List.mem_map.mpr ⟨t.job, (h.marked t ht hhit).1, rfl⟩)

/-- A job that rests is not in flight. -/
theorem notMem_of_resting (h : d.Caught accepted hit) {j : Job}
    (hj : j ∈ d.desk.index.roster.jobs) (hrest : j.running = false) :
    ∀ t ∈ d.inFlight, t.job.id ≠ j.id := by
  intro t ht hid
  have hheld : Held d.desk.index.roster.jobs t.job.id := hid ▸ List.mem_map.mpr ⟨j, hj, rfl⟩
  obtain ⟨hmem, hrun⟩ := h.marked t ht fun hhit => h.gone _ hhit hheld
  have htj : t.job = j := List.inj_on_of_nodup_map h.inStep.roster_unique hmem hj hid
  rw [htj, hrest] at hrun
  exact absurd hrun (by simp)

/-! ## 3. Handing jobs out -/

theorem issue (h : d.Caught accepted hit) {j : Job} (hj : j ∈ d.desk.index.roster.jobs)
    (hrest : j.running = false) {index : Index σ}
    (hrec : Recorded d.desk.index index { j with running := true }) :
    (d.issue index j).Caught accepted hit := by
  have hother := h.notMem_of_resting hj hrest
  have hheld : ∀ {id}, Held (d.issue index j).desk.index.roster.jobs id ↔
      Held d.desk.index.roster.jobs id := hrec.held_iff
  have hjheld : Held d.desk.index.roster.jobs j.id := List.mem_map.mpr ⟨j, hj, rfl⟩
  refine { inStep := hrec.inStep h.inStep
           numbered := h.numbered.issue index j
           distinct := nodup_ids_issue h.distinct hother
           marked := ?marked
           gone := fun id hid hin => h.gone id hid (hheld.mp hin)
           known := fun id hid => h.known id (hid.imp_left hheld.mp)
           fresh := fun id hid => h.fresh id (hheld.mp hid)
           once := h.once
           twice := h.twice
           pending := ?pending }
  case marked =>
    intro t ht hhit
    rcases List.mem_append.mp ht with ht | ht
    · obtain ⟨hmem, hrun⟩ := h.marked t ht hhit
      exact ⟨hrec.mem hmem (hother t ht), hrun⟩
    · obtain rfl := List.mem_singleton.mp ht
      exact ⟨hrec.kept.1, rfl⟩
  case pending =>
    intro t ht hhit
    rcases List.mem_append.mp ht with ht | ht
    · exact h.pending t ht hhit
    · obtain rfl := List.mem_singleton.mp ht
      exact absurd hjheld (h.gone _ hhit)

theorem pass {workers : Nat} (h : d.Caught accepted hit) (now : Int64) (c : Conditions) :
    (d.pass workers now c).Caught accepted hit :=
  pass_induction now c (fun h => h.inStep.matched)
    (fun h _ _ hj hrest hrec => h.issue hj hrest hrec) h

/-! ## 4. The other steps -/

/-- An announcement that nobody is gone changes nothing. -/
theorem announce (h : d.Caught accepted hit) {e : Event} (he : e.isTerminal = false) :
    ({ d with desk := d.desk.emit e } : Dispatch σ).Caught accepted hit := by
  have hsame : ∀ id, endings { d with desk := d.desk.emit e } id = d.endings id := fun id =>
    (endingsIn_append d.desk.events [e] id).trans (by simp [endingsIn, he, endings])
  exact { inStep := h.inStep
          numbered := h.numbered.of_sublist (.refl _) rfl
          distinct := h.distinct
          marked := h.marked
          gone := h.gone
          known := fun id hid => h.known id (hid.imp_right (Or.imp_right (hsame id ▸ ·)))
          fresh := fun id hheld => (hsame id).trans (h.fresh id hheld)
          once := fun id hhit => (hsame id).trans_le (h.once id hhit)
          twice := fun id hhit => (hsame id).trans_le (h.twice id hhit)
          pending := fun t ht hhit => (hsame _).trans_le (h.pending t ht hhit) }

/-- The job of the ticket has ended once more; whoever was struck on the way was there before, so it
had not been announced as gone. -/
theorem ends (h : d.Caught accepted hit) {r : Runner} {m : Moment} {t : Ticket}
    {ran : Option Behaviour} {v : Verdict} (ht : t ∈ d.inFlight) (hends : Ends r m t d ran v d') :
    d'.Caught accepted (hit ++ d.struck d') := by
  obtain ⟨hconcluded, hinFlight, hissued⟩ := hends.concluded
  have hsettled := h.settled ht hends
  have hendings : ∀ id, d'.endings id = d.endings id ∨
      d'.endings id = d.endings id + 1 ∧
        (id = t.job.id ∨ Held d.desk.index.roster.jobs id) ∧ ¬Held d'.desk.index.roster.jobs id :=
    hconcluded.endings h.inStep
  have hsub : d'.inFlight.Sublist d.inFlight := hinFlight ▸ List.filter_sublist
  have hother : ∀ u ∈ d'.inFlight, u.job.id ≠ t.job.id := fun u hu =>
    id_ne_of_mem_collect h.distinct ht (hinFlight ▸ hu)
  have hbefore : ∀ id, id ∉ hit → id = t.job.id ∨ Held d.desk.index.roster.jobs id →
      d.endings id = 0 := by
    rintro id hnot (rfl | hheld)
    · exact h.fresh _ (List.mem_map.mpr ⟨t.job, (h.marked t ht hnot).1, rfl⟩)
    · exact h.fresh id hheld
  refine { inStep := hsettled.inStep h.inStep
           numbered := h.numbered.of_sublist hsub hissued
           distinct := h.distinct.sublist (hsub.map _)
           marked := ?marked, gone := ?gone, known := ?known, fresh := ?fresh
           once := ?once, twice := ?twice, pending := ?pending }
  case marked =>
    intro u hu hnot
    obtain ⟨hhit, hstruck⟩ := not_or.mp (List.mem_append.not.mp hnot)
    obtain ⟨hmem, hrun⟩ := h.marked u (hsub.subset hu) hhit
    have hheld : Held d'.desk.index.roster.jobs u.job.id := by
      by_contra hgone
      exact hstruck (mem_struck.mpr ⟨⟨u, hu, rfl⟩, List.mem_map.mpr ⟨u.job, hmem, rfl⟩, hgone⟩)
    exact ⟨(hsettled.mem_iff (hother u hu) hheld).mpr hmem, hrun⟩
  case gone =>
    intro id hid
    rcases List.mem_append.mp hid with hid | hid
    · exact fun hheld => h.gone id hid (hsettled.held hheld)
    · exact (mem_struck.mp hid).2.2
  case known =>
    rintro id (hheld | hid | hpos)
    · exact h.known id (.inl (hsettled.held hheld))
    · rcases List.mem_append.mp hid with hid | hid
      · exact h.known id (.inr (.inl hid))
      · exact h.known id (.inl (mem_struck.mp hid).2.1)
    · rcases hendings id with heq | ⟨-, rfl | hheld, -⟩
      · exact h.known id (.inr (.inr (heq ▸ hpos)))
      · exact h.mem_accepted ht
      · exact h.known id (.inl hheld)
  case fresh =>
    intro id hheld
    rcases hendings id with heq | ⟨-, -, hgone⟩
    · exact heq.trans (h.fresh id (hsettled.held hheld))
    · exact absurd hheld hgone
  case once =>
    intro id hnot
    obtain ⟨hhit, -⟩ := not_or.mp (List.mem_append.not.mp hnot)
    rcases hendings id with heq | ⟨heq, hwas, -⟩
    · exact heq ▸ h.once id hhit
    · exact (heq.trans (by rw [hbefore id hhit hwas])).le
  -- whoever was struck just now was stored before, and had not ended
  case twice =>
    intro id hid
    by_cases hhit : id ∈ hit
    · rcases hendings id with heq | ⟨heq, rfl | hheld, -⟩
      · exact heq ▸ h.twice id hhit
      · have hpending := h.pending t ht hhit
        omega
      · exact absurd hheld (h.gone id hhit)
    · have hstruck := (List.mem_append.mp hid).resolve_left hhit
      have hnone := h.fresh id (mem_struck.mp hstruck).2.1
      rcases hendings id with heq | ⟨heq, -, -⟩ <;> omega
  case pending =>
    intro u hu hid
    by_cases hhit : u.job.id ∈ hit
    · rcases hendings u.job.id with heq | ⟨-, hself | hheld, -⟩
      · exact heq ▸ h.pending u (hsub.subset hu) hhit
      · exact absurd hself (hother u hu)
      · exact absurd hheld (h.gone _ hhit)
    · have hstruck := (List.mem_append.mp hid).resolve_left hhit
      have hnone := h.fresh _ (mem_struck.mp hstruck).2.1
      rcases hendings u.job.id with heq | ⟨heq, -, -⟩ <;> omega

/-- A batch brings ids that were never there. -/
theorem enqueue (h : d.Caught accepted hit) {batch : List Submission}
    (hw : ∀ s ∈ batch, s.WellFormed) (hnew : ∀ s ∈ batch, s.id ∉ accepted)
    (hd : d.enqueue batch = .ok d') : d'.Caught (accepted ++ batch.map Submission.id) hit := by
  obtain ⟨index, hins, rfl⟩ := enqueue_eq_ok hd
  have hinStep : InStep index.roster index.stored :=
    InStep.perform (x := d.desk.index.onTables) (c := .insert batch) h.inStep hw
      (Index.insert_onTables hins)
  have hbrought : ∀ id ∈ batch.map Submission.id, id ∉ accepted := by
    simpa using hnew
  have hsame : ∀ id, endings { d with desk := { d.desk with
      index, events := d.desk.events ++ batch.map fun s => .enqueued s.id s.job.factory } } id
        = d.endings id := fun id =>
    (endingsIn_append d.desk.events _ id).trans
      (by simp [endingsIn, endings, List.countP_map, Function.comp_def, Event.isTerminal])
  refine { inStep := hinStep
           numbered := h.numbered.of_sublist (.refl _) rfl
           distinct := h.distinct
           marked := ?marked, gone := ?gone, known := ?known, fresh := ?fresh
           once := fun id hhit => (hsame id).trans_le (h.once id hhit)
           twice := fun id hhit => (hsame id).trans_le (h.twice id hhit)
           pending := fun t ht hhit => (hsame _).trans_le (h.pending t ht hhit) }
  case marked =>
    intro t ht hhit
    obtain ⟨hmem, hrun⟩ := h.marked t ht hhit
    refine ⟨?_, hrun⟩
    show t.job ∈ index.roster.jobs
    rw [Index.jobs_of_insert hins]
    exact List.mem_append_left _ hmem
  case gone =>
    intro id hid hin
    rcases (Index.held_of_insert hins).mp hin with hin | hin
    · exact h.gone id hid hin
    · exact hbrought id hin (h.known id (.inr (.inl hid)))
  case known =>
    rintro id (hin | hid)
    · rcases (Index.held_of_insert hins).mp hin with hin | hin
      · exact List.mem_append_left _ (h.known id (.inl hin))
      · exact List.mem_append_right _ hin
    · exact List.mem_append_left _ (h.known id (.inr (hid.imp_right (hsame id ▸ ·))))
  case fresh =>
    intro id hin
    refine (hsame id).trans ?_
    rcases (Index.held_of_insert hins).mp hin with hin | hin
    · exact h.fresh id hin
    · by_contra hpos
      exact hbrought id hin (h.known id (.inr (.inr (Nat.pos_of_ne_zero hpos))))

theorem move {workers : Nat} {guarded : Bool} {brought new : List JobId}
    (h : d.Caught accepted hit) (hd : Move workers guarded accepted d brought new d') :
    d'.Caught (accepted ++ brought) (hit ++ new) := by
  cases hd with
  | enqueue hw hnew _ hd =>
    rw [List.append_nil]
    exact h.enqueue hw hnew hd
  | pass now c =>
    rw [List.append_nil, List.append_nil]
    exact h.pass now c
  | launch _ ht hd =>
    rw [List.append_nil, List.append_nil]
    obtain ⟨desk, hstart, rfl⟩ := launch_eq_inr hd
    obtain ⟨-, rfl⟩ := Runner.start_eq_inr hstart
    exact h.announce rfl
  | ends _ ht hends =>
    rw [List.append_nil]
    exact h.ends ht hends

end Caught

theorem caught_of_cascading {workers : Nat} {guarded : Bool} {accepted hit : List JobId}
    {d : Dispatch σ} (h : Cascading workers guarded accepted hit d) : d.Caught accepted hit := by
  induction h with
  | @start x y hs hy _ =>
    have hinStep : InStep y.roster y.stored :=
      InStep.perform (x := x.onTables) (c := .clearRunning) hs trivial
        (Index.clearRunning_onTables hy)
    exact ⟨hinStep, ⟨List.nodup_nil, by simp⟩, List.nodup_nil, by simp, by simp,
      by simp [endings, endingsIn, Held], by simp [endings, endingsIn],
      by simp [endings, endingsIn], by simp, by simp⟩
  | move _ hd ih => exact ih.move hd

end Dispatch

end Backlog
