/-
# Who is struck while it is in flight

A job that waits on a stored one is not handed out, so whoever falls with a job that is given up
would seem to be at rest.  It need not be: the job that it waits on may come while it is in flight,
and a migration job is handed out even while it waits.  Such a job is announced as cancelled, and
its failure hook is called, while its attempt goes on; and when that ends, it may well be announced
once more that the job is gone.

* `Dispatch.Unpressed`: no job in flight waits on a stored one.  Then nobody is struck
  (`Unpressed.struck_eq_nil`), and runs keep it if they take in nobody who is waited for in flight;
* `Dispatch.Fates`: what the end of an attempt means to the others in flight;
* `Dispatch.ends_once_unless_struck`: **a job ends once, unless it was struck while in flight**,
  with who is struck and how to rule that out;
* `Dispatch.digest_ends_twice`: a run in which a job is struck and ends twice.
-/
import Backlog.Proofs.Dispatch.Cascading

namespace Backlog

open Relation

variable {σ : Type} [Storage σ] [Tabular σ]

namespace Dispatch

/-! ## 1. Who cannot be struck -/

/-- No job in flight waits on a stored one, and no stored migration job has a row. -/
structure Unpressed (d : Dispatch σ) : Prop where
  unencumbered : d.desk.index.stored.Unencumbered
  free : ∀ t ∈ d.inFlight, ∀ e ∈ d.desk.index.stored.edges, e.job = t.job.id →
    ¬Held d.desk.index.roster.jobs e.waitsOn

namespace Unpressed

variable {accepted hit : List JobId} {d d' : Dispatch σ}

/-- Whoever may be handed out waits on nobody who is stored. -/
theorem free_of_eligible (h : d.Unpressed) (hs : InStep d.desk.index.roster d.desk.index.stored)
    {now : Int64} {j : Job} (hj : j ∈ d.desk.index.eligible now) :
    ∀ e ∈ d.desk.index.stored.edges, e.job = j.id → ¬Held d.desk.index.roster.jobs e.waitsOn := by
  rintro ⟨job, waitsOn⟩ he rfl hheld
  obtain ⟨hmem, -, -, hhead | ⟨-, -, hfree⟩⟩ := Roster.mem_eligible_iff.mp hj
  · obtain ⟨-, hq⟩ := List.mem_filter.mp (earliest?_mem hhead)
    exact h.unencumbered j (hs.mem_iff.mp hmem) hq _ he rfl
  · refine Roster.isBlocked_eq_false_iff.mp hfree waitsOn (hs.waits_iff.mpr ⟨he, ?_, ?_⟩)
    · exact hs.edge_owned _ he
    · exact hs.matched.held_iff.mp hheld

theorem issue (h : d.Unpressed) {j : Job} (hj : j ∈ d.desk.index.stored.jobs)
    (hfree : ∀ e ∈ d.desk.index.stored.edges, e.job = j.id →
      ¬Held d.desk.index.roster.jobs e.waitsOn) {index : Index σ}
    (hrec : Recorded d.desk.index index { j with running := true }) :
    (d.issue index j).Unpressed where
  unencumbered := hrec.unencumbered hj rfl rfl h.unencumbered
  free t ht e he hid hheld := by
    have he : e ∈ d.desk.index.stored.edges := by
      rwa [Dispatch.issue, (Index.eq_of_onTables hrec.index).2] at he
    have hheld := hrec.held_iff.mp hheld
    rcases List.mem_append.mp ht with ht | ht
    · exact h.free t ht e he hid hheld
    · obtain rfl := List.mem_singleton.mp ht
      exact hfree e he hid hheld

/-- Handing one job out adds no row and no job, so it presses none of those that come after it. -/
theorem pass {workers : Nat} (h : d.Unpressed)
    (hs : InStep d.desk.index.roster d.desk.index.stored) (now : Int64) (c : Conditions) :
    (d.pass workers now c).Unpressed := by
  have hpassed : (d.pass workers now c).Unpressed ∧ _ := pass_induction (d := d)
    (P := fun e => e.Unpressed ∧ InStep e.desk.index.roster e.desk.index.stored ∧
      e.desk.index.stored.edges = d.desk.index.stored.edges ∧
      ∀ id, Held e.desk.index.roster.jobs id ↔ Held d.desk.index.roster.jobs id) now c
    (fun ⟨_, hs, _⟩ => hs.matched)
    (fun ⟨he, hse, hedges, hheld⟩ _ hel hj _ hrec => by
      have hfree := h.free_of_eligible hs hel
      simp only [← hedges, ← hheld] at hfree
      refine ⟨he.issue (hse.mem_iff.mp hj) hfree hrec, hrec.inStep hse, ?_, fun id => ?_⟩
      · exact (congrArg Tables.edges (Index.eq_of_onTables hrec.index).2).trans hedges
      · exact hrec.held_iff.trans (hheld id))
    ⟨h, hs, rfl, fun _ => Iff.rfl⟩
  exact hpassed.1

theorem enqueue (h : d.Unpressed) (hc : d.Caught accepted hit) {batch : List Submission}
    (hw : ∀ s ∈ batch, s.WellFormed) (hnew : ∀ s ∈ batch, s.id ∉ accepted)
    (hunawaited : d.Unawaited batch) (hd : d.enqueue batch = .ok d') : d'.Unpressed := by
  obtain ⟨index, hins, rfl⟩ := enqueue_eq_ok hd
  obtain ⟨-, -, hdup, hy⟩ := Index.insert_eq_ok_iff.mp (Index.insert_onTables hins)
  have hstored : index.stored = d.desk.index.stored.append batch := (Index.eq_of_onTables hy).2
  refine ⟨?_, fun t ht e he hid hheld => ?_⟩
  · show index.stored.Unencumbered
    rw [hstored]
    exact h.unencumbered.append hc.inStep.edge_owned hw hdup hunawaited.1
  · have he : e ∈ d.desk.index.stored.edges ++ batch.flatMap Submission.edges :=
      (congrArg (e ∈ Tables.edges ·) hstored).mp he
    rcases List.mem_append.mp he with he | he
    · rcases (Index.held_of_insert hins).mp hheld with hheld | hheld
      · exact h.free t ht e he hid hheld
      · exact hunawaited.2 t ht e he hid hheld
    -- a row that came with the batch belongs to a job that came with it
    · obtain ⟨s, hs, hes⟩ := List.mem_flatMap.mp he
      refine hnew s hs ?_
      rw [← (hw s hs).2 e hes, hid]
      exact hc.mem_accepted ht

theorem ends (h : d.Unpressed) (hc : d.Caught accepted hit) {r : Runner} {m : Moment} {t : Ticket}
    {ran : Option Behaviour} {v : Verdict} (ht : t ∈ d.inFlight) (hends : Ends r m t d ran v d') :
    d'.Unpressed := by
  obtain ⟨hconcluded, hinFlight, -⟩ := hends.concluded
  have hsettled := hc.settled ht hends
  have hfree := hconcluded.unencumbered hc.inStep (hc.mem_of_held ht) h.unencumbered
  refine ⟨hfree, fun u hu e he hid hheld => ?_⟩
  rw [hinFlight] at hu
  exact h.free u (List.mem_of_mem_filter hu) e (hsettled.edges_subset he) hid
    (hsettled.held hheld)

/-- Nobody in flight has a way to a stored job, so nobody falls with the job of a ticket. -/
theorem struck_eq_nil (h : d.Unpressed) (hc : d.Caught accepted []) {r : Runner} {m : Moment}
    {t : Ticket} {ran : Option Behaviour} {v : Verdict} (hr : r.cascade = true)
    (ht : t ∈ d.inFlight) (hends : Ends r m t d ran v d') : d.struck d' = [] := by
  obtain ⟨hconcluded, hinFlight, -⟩ := hends.concluded
  have hmem := (hc.marked t ht List.not_mem_nil).1
  refine List.eq_nil_iff_forall_not_mem.mpr fun id hid => ?_
  obtain ⟨⟨u, hu, rfl⟩, hheld, hgone⟩ := mem_struck.mp hid
  rw [hinFlight] at hu
  have hne := id_ne_of_mem_collect hc.distinct ht hu
  have hpath := ((hconcluded.gone_iff hr hc.inStep (fun _ => hmem) hne hheld).mp hgone).2
  -- the first step of the way leads to somebody who is stored
  obtain ⟨b, hub, hbt⟩ := TransGen.head'_iff.mp hpath
  refine h.free u (List.mem_of_mem_filter hu) ⟨u.job.id, b⟩ hub rfl ?_
  rcases ReflTransGen.cases_head_iff.mp hbt with rfl | ⟨c, hbc, -⟩
  · exact List.mem_map.mpr ⟨t.job, hmem, rfl⟩
  · exact hc.inStep.matched.held_iff.mpr (hc.inStep.edge_owned _ hbc)

end Unpressed

theorem unpressed_of_cascading {workers : Nat} {accepted hit : List JobId} {d : Dispatch σ}
    (h : Cascading workers true accepted hit d) : hit = [] ∧ d.Unpressed := by
  induction h with
  | start _ _ hfree => exact ⟨rfl, hfree rfl, by simp⟩
  | move hrun hd ih =>
    obtain ⟨rfl, hfree⟩ := ih
    have hc := caught_of_cascading hrun
    cases hd with
    | enqueue hw hnew hunawaited hd => exact ⟨rfl, hfree.enqueue hc hw hnew (hunawaited rfl) hd⟩
    | pass now c => exact ⟨rfl, hfree.pass hc.inStep now c⟩
    | launch _ _ hd =>
      obtain ⟨desk, hstart, rfl⟩ := launch_eq_inr hd
      obtain ⟨-, rfl⟩ := Runner.start_eq_inr hstart
      exact ⟨rfl, hfree.unencumbered, hfree.free⟩
    | ends hr ht hends => exact ⟨hfree.struck_eq_nil hc hr ht hends, hfree.ends hc ht hends⟩

/-! ## 2. Who is struck -/

/-- What the end of the attempt of `t` means to the others in flight.  Its failure hook may be
called, and those of `heard`. -/
structure Fates (r : Runner) (t : Ticket) (d : Dispatch σ) (ran : Option Behaviour) (v : Verdict)
    (d' : Dispatch σ) (heard : List Job) : Prop where
  notes : ∃ own ∈ [none, r.freshHooks t.job, ran.map Behaviour.spent],
    d'.desk.notes = d.desk.notes ++ hookNotes own ++
      heard.flatMap fun k => hookNotes (r.freshHooks k)
  /-- Whoever is stored and leads to the job falls with it. -/
  struck_iff : ∀ u ∈ d.inFlight, u ≠ t →
    (u.job.id ∈ d.struck d' ↔ v.gaveUp = true ∧ Held d.desk.index.roster.jobs u.job.id ∧
      TransGen d.desk.index.stored.Names u.job.id t.job.id)
  /-- Unless a hook breaks off, it is announced that the job is gone if it is over, and so is whoever
  was struck, whose hook is called. -/
  ended : ∀ outcome, v = .done outcome →
    (outcome.isTerminal = true → d'.endings t.job.id = d.endings t.job.id + 1) ∧
    ∀ u ∈ d.inFlight, u ≠ t → u.job.id ∈ d.struck d' →
      d'.endings u.job.id = d.endings u.job.id + 1 ∧ u.job ∈ heard
  /-- Nothing is done to anybody else. -/
  spared : ∀ u ∈ d.inFlight, u ≠ t → u.job.id ∉ d.struck d' →
    (∀ k, k.id = u.job.id → (k ∈ d'.desk.index.roster.jobs ↔ k ∈ d.desk.index.roster.jobs) ∧
      (k ∈ d'.desk.index.stored.jobs ↔ k ∈ d.desk.index.stored.jobs)) ∧
    d'.endings u.job.id = d.endings u.job.id ∧ ∀ k ∈ heard, k.id ≠ u.job.id

namespace Caught

variable {accepted hit : List JobId} {d d' : Dispatch σ} {r : Runner} {m : Moment} {t u : Ticket}
  {ran : Option Behaviour} {v : Verdict}

/-- The others stay in flight. -/
theorem mem_inFlight_of_ends (h : d.Caught accepted hit) (ht : t ∈ d.inFlight)
    (hends : Ends r m t d ran v d') (hu : u ∈ d.inFlight) (hne : u ≠ t) :
    u ∈ d'.inFlight ∧ u.job.id ≠ t.job.id := by
  have hu' := (h.numbered.mem_collect ht).mpr ⟨hu, hne⟩
  exact ⟨hends.concluded.2.1 ▸ hu', id_ne_of_mem_collect h.distinct ht hu'⟩

theorem mem_struck_iff (h : d.Caught accepted hit) (hr : r.cascade = true) (ht : t ∈ d.inFlight)
    (hends : Ends r m t d ran v d') (hu : u ∈ d.inFlight) (hne : u ≠ t) :
    u.job.id ∈ d.struck d' ↔ v.gaveUp = true ∧ Held d.desk.index.roster.jobs u.job.id ∧
      TransGen d.desk.index.stored.Names u.job.id t.job.id := by
  obtain ⟨hu', hid⟩ := h.mem_inFlight_of_ends ht hends hu hne
  rw [mem_struck, and_iff_right ⟨u, hu', rfl⟩, and_left_comm]
  exact and_congr_right fun hheld =>
    hends.concluded.1.gone_iff hr h.inStep (h.mem_of_held ht) hid hheld

theorem held_of_spared (h : d.Caught accepted hit) (ht : t ∈ d.inFlight)
    (hends : Ends r m t d ran v d') (hu : u ∈ d.inFlight) (hne : u ≠ t)
    (hspared : u.job.id ∉ d.struck d') (hheld : Held d.desk.index.roster.jobs u.job.id) :
    Held d'.desk.index.roster.jobs u.job.id := by
  obtain ⟨hu', -⟩ := h.mem_inFlight_of_ends ht hends hu hne
  by_contra hgone
  exact hspared (mem_struck.mpr ⟨⟨u, hu', rfl⟩, hheld, hgone⟩)

theorem mem_iff_of_spared (h : d.Caught accepted hit) (ht : t ∈ d.inFlight)
    (hends : Ends r m t d ran v d') (hu : u ∈ d.inFlight) (hne : u ≠ t)
    (hspared : u.job.id ∉ d.struck d') {k : Job} (hk : k.id = u.job.id) :
    k ∈ d'.desk.index.roster.jobs ↔ k ∈ d.desk.index.roster.jobs := by
  have hsettled := h.settled ht hends
  have hkt : k.id ≠ t.job.id := hk ▸ (h.mem_inFlight_of_ends ht hends hu hne).2
  constructor
  · intro hmem
    exact (hsettled.mem_iff hkt (List.mem_map.mpr ⟨k, hmem, rfl⟩)).mp hmem
  · intro hmem
    have hheld : Held d.desk.index.roster.jobs u.job.id := hk ▸ List.mem_map.mpr ⟨k, hmem, rfl⟩
    exact (hsettled.mem_iff hkt (hk ▸ h.held_of_spared ht hends hu hne hspared hheld)).mpr hmem

theorem endings_of_spared (h : d.Caught accepted hit) (ht : t ∈ d.inFlight)
    (hends : Ends r m t d ran v d') (hu : u ∈ d.inFlight) (hne : u ≠ t)
    (hspared : u.job.id ∉ d.struck d') : d'.endings u.job.id = d.endings u.job.id := by
  rcases hends.concluded.1.endings h.inStep u.job.id with heq | ⟨-, hself | hheld, hgone⟩
  · exact heq
  · exact absurd hself (h.mem_inFlight_of_ends ht hends hu hne).2
  · exact absurd (h.held_of_spared ht hends hu hne hspared hheld) hgone

theorem fates (h : d.Caught accepted hit) (hr : r.cascade = true) (ht : t ∈ d.inFlight)
    (hends : Ends r m t d ran v d') : ∃ heard, Fates r t d ran v d' heard := by
  have hconcluded := hends.concluded.1
  obtain ⟨own, heard, hown, hnotes, hheard, hall⟩ := hconcluded.told
  refine ⟨heard, { notes := ⟨own, hown, hnotes⟩
                   struck_iff := fun u hu hne => h.mem_struck_iff hr ht hends hu hne
                   ended := ?ended, spared := ?spared }⟩
  case ended =>
    rintro outcome rfl
    refine ⟨fun hover => hconcluded.endings_of_done h.inStep hover (.inl rfl),
      fun u hu hne hhit => ?_⟩
    obtain ⟨hgave, hheld, hpath⟩ := (h.mem_struck_iff hr ht hends hu hne).mp hhit
    have hout : outcome.isFailure = true := hgave
    have hid := (h.mem_inFlight_of_ends ht hends hu hne).2
    have hfell : u.job ∈ r.fallen d.desk.index t.job :=
      (Runner.mem_fallen_iff h.inStep).mpr ⟨hr, h.mem_of_held hu hheld, hid, hpath⟩
    refine ⟨hconcluded.endings_of_done h.inStep (Outcome.isTerminal_of_isFailure hout)
      (.inr ⟨hout, List.mem_map.mpr ⟨u.job, hfell, rfl⟩⟩), ?_⟩
    rw [hall outcome rfl hout]
    exact hfell
  case spared =>
    intro u hu hne hspared
    refine ⟨fun k hk => ?_, h.endings_of_spared ht hends hu hne hspared, fun k hk hid => ?_⟩
    · have hrecord := h.mem_iff_of_spared ht hends hu hne hspared hk
      refine ⟨hrecord, ?_⟩
      rw [← ((h.settled ht hends).inStep h.inStep).mem_iff, hrecord, h.inStep.mem_iff]
    · obtain ⟨hgave, hfell⟩ := hheard k hk
      obtain ⟨-, hmem, -, hpath⟩ := (Runner.mem_fallen_iff h.inStep).mp hfell
      rw [hid] at hpath
      exact hspared ((h.mem_struck_iff hr ht hends hu hne).mpr
        ⟨hgave, List.mem_map.mpr ⟨k, hmem, hid⟩, hpath⟩)

end Caught

/-- **A job ends once, unless it was struck while in flight.**  In every state of a dispatcher whose
failures cascade, whatever it takes in, however attempts end, and whichever writes the store
refuses: it is announced once at most that a job is gone for good, and twice at most of one that was
struck.  When an attempt ends, those in flight that are struck are the stored ones that lead to its
job, if that is given up; they are announced and told, and nothing is done to the others.  So nobody
is struck as long as no batch brings a job that someone in flight waits for, and no migration job
has a row. -/
theorem ends_once_unless_struck {workers : Nat} {guarded : Bool} {accepted hit : List JobId}
    {d : Dispatch σ} (h : Cascading workers guarded accepted hit d) :
    (∀ id, d.endings id ≤ 1 ∨ id ∈ hit ∧ d.endings id ≤ 2) ∧
    (∀ id, 0 < d.endings id → id ∈ accepted ∧ ¬Held d.desk.index.roster.jobs id) ∧
    (guarded = true → hit = []) ∧
    ∀ (r : Runner) (m : Moment) (t : Ticket) (ran : Option Behaviour) (v : Verdict)
      (d' : Dispatch σ), r.cascade = true → t ∈ d.inFlight → Ends r m t d ran v d' →
      ∃ heard, Fates r t d ran v d' heard := by
  have hc := caught_of_cascading h
  refine ⟨fun id => ?_, fun id hpos => ⟨hc.known id (.inr (.inr hpos)), fun hheld => ?_⟩, ?_,
    fun r m t ran v d' hr ht hends => hc.fates hr ht hends⟩
  · by_cases hid : id ∈ hit
    · exact .inr ⟨hid, hc.twice id hid⟩
    · exact .inl (hc.once id hid)
  · exact absurd (hc.fresh id hheld) (Nat.ne_of_gt hpos)
  · rintro rfl
    exact (unpressed_of_cascading h).1

/-! ## 3. Two runs -/

/-- A job that waits on `source`, and one that waits on nobody. -/
def digest : Job := { id := ⟨"digest"⟩, factory := "http", created := 1 }

def source : Job := { id := ⟨"source"⟩, factory := "flaky", created := 2 }

def bystander : Job := { id := ⟨"bystander"⟩, factory := "http", created := 3 }

def digestRow : Edge := ⟨digest.id, source.id⟩

/-- The attempt breaks off. -/
def broken : Behaviour := { attempt := { ending := .panicked } }

/-- Jobs of one kind are done at the first attempt, and those of the other kind break off. -/
def flaky : Runner :=
  { registry := { decoders := [("http", fun _ _ => .ok done), ("flaky", fun _ _ => .ok broken)] }
    cascade := true }

/-- A job as it is handed out, and its ticket. -/
def sent (j : Job) : Job := { j with running := true }

def ticket (number : Nat) (j : Job) : Ticket := ⟨number, sent j⟩

theorem conclude_source (d : Desk Tables) : flaky.conclude { now := 100 } (sent source) broken d
    = flaky.fail (sent source) none true "job panicked" .fatalFailure d := rfl

/-- A dispatcher on tables with these jobs and rows. -/
def staffed (jobs : List Job) (edges : List Edge) (events : List Event) (inFlight : List Ticket)
    (issued : Nat) : Dispatch Tables where
  desk := { index := { store := { jobs, edges }
                       roster := { jobs, edges := .byKey Edge.job edges } }
            events }
  inFlight
  issued

/-- All three come together, so `digest` has to wait. -/
def orderlyEvents : List Event :=
  [.enqueued source.id "flaky", .enqueued digest.id "http", .enqueued bystander.id "http",
    .started source.id 0, .started bystander.id 0]

/-- The other two are in flight. -/
def orderly : Dispatch Tables :=
  staffed [sent source, digest, sent bystander] [digestRow] orderlyEvents
    [ticket 0 source, ticket 1 bystander] 2

/-- `source` was given up, and `digest` fell with it. -/
def settled : Dispatch Tables :=
  staffed [sent bystander] [] (orderlyEvents ++
    [.failed source.id true "job panicked", .cancelled digest.id source.id]) [ticket 1 bystander] 2

theorem cascading_orderly :
    Cascading 2 true [source.id, digest.id, bystander.id] [] orderly := by
  let batch : List Submission :=
    [{ job := source }, Submission.waitingOn { job := digest } source.id, { job := bystander }]
  have henqueue : enqueue batch (staffed [] [] [] [] 0)
      = .ok (staffed [source, digest, bystander] [digestRow] (orderlyEvents.take 3) [] 0) := rfl
  have hpass : (staffed [source, digest, bystander] [digestRow] (orderlyEvents.take 3) [] 0).pass
      2 100 {} = staffed [sent source, digest, sent bystander] [digestRow] (orderlyEvents.take 3)
        [ticket 0 source, ticket 1 bystander] 2 := by cbv
  have hlaunch : launch flaky { now := 100 } (ticket 0 source)
      (staffed [sent source, digest, sent bystander] [digestRow] (orderlyEvents.take 3)
        [ticket 0 source, ticket 1 bystander] 2)
      = (.inr broken, staffed [sent source, digest, sent bystander] [digestRow]
          (orderlyEvents.take 4) [ticket 0 source, ticket 1 bystander] 2) := rfl
  have hsecond : launch flaky { now := 100 } (ticket 1 bystander)
      (staffed [sent source, digest, sent bystander] [digestRow] (orderlyEvents.take 4)
        [ticket 0 source, ticket 1 bystander] 2) = (.inr done, orderly) := rfl
  have hstart : Cascading 2 true [] [] (staffed [] [] [] [] 0) :=
    .start (x := (staffed [] [] [] [] 0).desk.index) .empty rfl
      fun _ m hm => absurd hm List.not_mem_nil
  have hunawaited : (staffed [] [] [] [] 0).Unawaited batch :=
    ⟨(by decide : ∀ s ∈ batch, s.job.isMigration = true → s.edges = []),
      fun t ht => absurd ht List.not_mem_nil⟩
  have hready := hstart.move (.enqueue (by decide) (by decide) (fun _ => hunawaited) henqueue)
  have hsent := hready.move (.pass 100 {} _)
  rw [hpass] at hsent
  have hbegun := hsent.move (.launch rfl (by decide) hlaunch)
  exact hbegun.move (.launch rfl (by decide) hsecond)

theorem finish_orderly : finish flaky { now := 100 } (ticket 0 source) broken orderly
    = (.done .fatalFailure, settled) := by
  have hfallen : Runner.casualties orderly.desk.index source.id = [digest] := by cbv
  have hjob : (ticket 0 source).job = sent source := rfl
  have hid : (sent source).id = source.id := rfl
  simp only [finish, hjob, conclude_source, Runner.fail, hid, hfallen]
  rfl

/-- Nobody in flight falls with `source`. -/
theorem ends_once_orderly :
    Cascading 2 true [source.id, digest.id, bystander.id] [] orderly ∧
      flaky.cascade = true ∧ ticket 0 source ∈ orderly.inFlight ∧
      Ends flaky { now := 100 } (ticket 0 source) orderly (some broken) (.done .fatalFailure)
        settled ∧
      (∃ heard, Fates flaky (ticket 0 source) orderly (some broken) (.done .fatalFailure) settled
        heard) ∧
      orderly.struck settled = [] ∧ settled.endings digest.id = 1 ∧
      ∀ id, settled.endings id ≤ 1 := by
  have hin : ticket 0 source ∈ orderly.inFlight := List.mem_cons_self
  have hends : Ends flaky { now := 100 } (ticket 0 source) orderly (some broken)
      (.done .fatalFailure) settled := .made finish_orderly
  obtain ⟨-, -, -, hfates⟩ := ends_once_unless_struck cascading_orderly
  have hfell := cascading_orderly.move (.ends rfl hin hends)
  obtain ⟨honce, -, hnobody, -⟩ := ends_once_unless_struck hfell
  have hnone : orderly.struck settled = [] := hnobody rfl
  refine ⟨cascading_orderly, rfl, hin, hends, hfates flaky _ _ _ _ _ rfl hin hends, hnone,
    by decide, fun id => ?_⟩
  rcases honce id with hone | ⟨hhit, -⟩
  · exact hone
  · rw [hnone] at hhit
    exact absurd hhit List.not_mem_nil

/-- What has been announced by the time `source` breaks off: it came while `digest` was in flight,
so that did not wait. -/
def lateEvents : List Event :=
  [.enqueued digest.id "http", .started digest.id 0, .enqueued source.id "flaky",
    .started source.id 0]

/-- Both are in flight. -/
def brink : Dispatch Tables :=
  staffed [sent digest, sent source] [digestRow] lateEvents [ticket 0 digest, ticket 1 source] 2

/-- `source` has been given up, and `digest` with it. -/
def fallenEvents : List Event :=
  lateEvents ++ [.failed source.id true "job panicked", .cancelled digest.id source.id]

theorem cascading_brink : Cascading 2 false [digest.id, source.id] [] brink := by
  have henqueue : enqueue [Submission.waitingOn { job := digest } source.id] (staffed [] [] [] [] 0)
      = .ok (staffed [digest] [digestRow] (lateEvents.take 1) [] 0) := rfl
  have hpass : (staffed [digest] [digestRow] (lateEvents.take 1) [] 0).pass 2 100 {}
      = staffed [sent digest] [digestRow] (lateEvents.take 1) [ticket 0 digest] 1 := by cbv
  have hlaunch : launch flaky { now := 100 } (ticket 0 digest)
      (staffed [sent digest] [digestRow] (lateEvents.take 1) [ticket 0 digest] 1)
      = (.inr done,
          staffed [sent digest] [digestRow] (lateEvents.take 2) [ticket 0 digest] 1) := rfl
  have hlate : enqueue [{ job := source }]
      (staffed [sent digest] [digestRow] (lateEvents.take 2) [ticket 0 digest] 1)
      = .ok (staffed [sent digest, source] [digestRow] (lateEvents.take 3)
          [ticket 0 digest] 1) := rfl
  have hlatePass : (staffed [sent digest, source] [digestRow] (lateEvents.take 3)
      [ticket 0 digest] 1).pass 2 100 {}
      = staffed [sent digest, sent source] [digestRow] (lateEvents.take 3)
          [ticket 0 digest, ticket 1 source] 2 := by cbv
  have hlateLaunch : launch flaky { now := 100 } (ticket 1 source)
      (staffed [sent digest, sent source] [digestRow] (lateEvents.take 3)
        [ticket 0 digest, ticket 1 source] 2) = (.inr broken, brink) := rfl
  have hstart : Cascading 2 false [] [] (staffed [] [] [] [] 0) :=
    .start (x := (staffed [] [] [] [] 0).desk.index) .empty rfl (by simp)
  have hready := hstart.move (.enqueue (by decide) (by decide) (by simp) henqueue)
  have hsent := hready.move (.pass 100 {} _)
  rw [hpass] at hsent
  have hbegun := hsent.move (.launch rfl (by decide) hlaunch)
  have hcome := hbegun.move (.enqueue (by decide) (by decide) (by simp) hlate)
  have hboth := hcome.move (.pass 100 {} _)
  rw [hlatePass] at hboth
  exact hboth.move (.launch rfl (by decide) hlateLaunch)

theorem finish_brink : finish flaky { now := 100 } (ticket 1 source) broken brink
    = (.done .fatalFailure, staffed [] [] fallenEvents [ticket 0 digest] 2) := by
  have hfallen : Runner.casualties brink.desk.index source.id = [sent digest] := by cbv
  have hjob : (ticket 1 source).job = sent source := rfl
  have hid : (sent source).id = source.id := rfl
  simp only [finish, hjob, conclude_source, Runner.fail, hid, hfallen]
  rfl

/-- `digest` is struck while it is in flight, and then it is announced again that it is gone. -/
theorem digest_ends_twice :
    (¬∀ (workers : Nat) (accepted hit : List JobId) (d : Dispatch Tables),
      Cascading workers false accepted hit d → hit = []) ∧
    ¬∀ (workers : Nat) (accepted hit : List JobId) (d : Dispatch Tables),
      Cascading workers false accepted hit d → ∀ id, d.endings id ≤ 1 := by
  have hend : finish flaky { now := 100 } (ticket 0 digest) done
      (staffed [] [] fallenEvents [ticket 0 digest] 2)
      = (.done .success, staffed [] [] (fallenEvents ++ [.succeeded digest.id]) [] 2) := rfl
  have hfell := cascading_brink.move (.ends rfl (by decide) (.made finish_brink))
  have hgone := hfell.move (.ends rfl (by decide) (.made hend))
  constructor
  · intro h
    have hhit := h _ _ _ _ hfell
    exact absurd hhit (by decide)
  · intro h
    have htwice := h _ _ _ _ hgone digest.id
    exact absurd htwice (by decide)

end Dispatch

end Backlog
