/-
# One attempt of a scripted job

A scripted job is decoded from its payload at every attempt, and the number of the attempt, which is
kept in its record, says which step is performed.  So what an attempt comes to can be read off the
script and that number.

* `Script.ofPayload?_toJson`: the script that was written into a payload is read off it;
* `Runner.Plays`: a runner that knows scripted jobs; nobody else writes into their journal;
* `Scripted.Awaits`: the records of a scripted job that awaits attempt `n`;
* `Script.result`, `Script.trace`: the outcome of attempt `n`, and what it leaves in the journal;
* `Scripted.executed`: **these are what a run of the runner comes to**, and the job then awaits the
  next attempt, or is gone.
-/
import Backlog.Proofs.Codec
import Backlog.Proofs.Graph.Dependents
import Backlog.Proofs.Hooks

namespace Backlog

/-! ## 1. Payloads -/

/-- Nothing is no JSON text. -/
theorem Json.ofBytes?_of_isEmpty {bytes : ByteArray} (h : bytes.isEmpty = true) :
    ofBytes? bytes = none := by
  obtain ⟨data⟩ := bytes
  obtain rfl : data = #[] := by simpa [ByteArray.isEmpty, ByteArray.size] using h
  rfl

namespace Script

theorem ofJson?_toJson (s : Script) : Script.ofJson? s.toJson = some s := by
  refine Json.object_bind rfl (by decide) ?_
  refine Members.required_bind rfl (Json.list?_map fun t _ => t.ofJson?_toJson (by decide)) ?_
  exact Members.defaulted_bind rfl (Json.word64?_toNat s.backoffMillis) rfl

theorem printable (s : Script) : Json.Printable s.toJson := by
  refine .object ?_
  simp only [List.forall_mem_cons]
  exact ⟨Json.printable_array_map fun t _ => t.printable, Json.printable_word64 _, by simp⟩

/-- A script is read off the payload it was written into. -/
theorem ofPayload?_toJson (s : Script) : ofPayload? s.toJson.compact.toUTF8 = some s := by
  have hread : Json.ofBytes? s.toJson.compact.toUTF8 = some s.toJson := s.printable.readsBack
  have hnonempty : s.toJson.compact.toUTF8.isEmpty = false := by
    rw [Bool.eq_false_iff]
    intro hempty
    rw [Json.ofBytes?_of_isEmpty hempty] at hread
    cases hread
  rw [ofPayload?, hnonempty, if_neg Bool.false_ne_true, hread, Option.bind_some]
  have hobject : s.toJson.nullable? ofJson? = (ofJson? s.toJson).map some := rfl
  rw [hobject, ofJson?_toJson]
  rfl

end Script

/-! ## 2. Runners that play scripts -/

/-- The job that left an entry. -/
def Entry.job : Entry → JobId
  | ran id _ | woke id | failureHook id => id

/-- What a scripted job left in the journal of the scripted jobs. -/
def Journal.about (id : JobId) (notes : List Note) : Journal :=
  (Journal.named Scripted.journal notes).filter (·.job == id)

theorem Journal.about_append (id : JobId) (notes more : List Note) :
    about id (notes ++ more) = about id notes ++ about id more := by
  simp [about, named]

/-- A runner that decodes scripted jobs, with no failure hook that breaks off.  The journal of the
scripted jobs is their own: no other hook writes into it. -/
structure Runner.Plays (r : Runner) : Prop where
  decodes : r.registry.decoders.lookup Scripted.factory = some Scripted.decoder
  calm : r.Calm
  apart : ∀ k b, k.factory ≠ Scripted.factory → r.registry.decode k = .ok b →
    ∀ n ∈ b.fresh.onFailure.notes, n.journal ≠ Scripted.journal

namespace Runner

variable {r : Runner}

theorem Plays.decode (hr : r.Plays) {j : Job} (hj : j.factory = Scripted.factory) :
    r.registry.decode j = Scripted.decoder j.parameters j.payload := by
  simp only [Registry.decode, hj, hr.decodes]

/-- The hook of another job leaves no entry about this one. -/
theorem Plays.about_hookNotes (hr : r.Plays) {k : Job} {id : JobId} (hk : k.id ≠ id) :
    Journal.about id (hookNotes (r.freshHooks k)) = [] := by
  cases hdec : r.registry.decode k with
  | error e => simp [freshHooks, hdec, Except.toOption, hookNotes, Journal.about, Journal.named]
  | ok b =>
    have hnotes : hookNotes (r.freshHooks k) = b.fresh.onFailure.notes := by
      simp [freshHooks, hdec, Except.toOption, hookNotes]
    rw [hnotes]
    by_cases hfactory : k.factory = Scripted.factory
    · rw [hr.decode hfactory, Scripted.decoder] at hdec
      split at hdec
      · obtain rfl := Except.ok.inj hdec
        have hid : k.parameters.id = k.id := rfl
        simpa [Scripted.behaviour, Scripted.note, Journal.about, Journal.named, Entry.job, hid]
          using hk
      · cases hdec
    · have hapart := hr.apart k b hfactory hdec
      have hnone : b.fresh.onFailure.notes.filter (·.journal == Scripted.journal) = [] := by
        simpa [List.filter_eq_nil_iff] using hapart
      simp [Journal.about, Journal.named, hnone]

/-- The registry of scripted jobs alone. -/
theorem plays_of_registry (h : r.registry = ⟨[(Scripted.factory, Scripted.decoder)]⟩) :
    r.Plays := by
  have hkey : ∀ {k : Job} {b : Behaviour}, r.registry.decode k = .ok b →
      k.factory = Scripted.factory := by
    intro k b hb
    by_contra hne
    simp [h, Registry.decode, List.lookup_cons, beq_eq_false_iff_ne.mpr hne] at hb
  have hdecodes : r.registry.decoders.lookup Scripted.factory = some Scripted.decoder := by
    simp [h]
  refine ⟨hdecodes, fun k b hb => ?_, fun k b hne hb => absurd (hkey hb) hne⟩
  simp only [Registry.decode, hkey hb, hdecodes, Scripted.decoder] at hb
  split at hb
  · obtain rfl := Except.ok.inj hb
    exact ⟨rfl, rfl⟩
  · cases hb

end Runner

/-! ## 3. What an attempt comes to -/

/-- How an attempt that performs a step is classed; nothing if the code breaks off. -/
def Step.outcome : Step → Option Outcome
  | succeed | succeedAfter _ => some .success
  | transient => some .retry
  | permanent => some .failure
  | defect => some .fatalFailure
  | panic => none

namespace Script

/-- The step of attempt `n`. -/
def step (s : Script) (n : Nat) : Step := s.steps.getD n .succeed

/-- The outcome of attempt `n` of a job that is allowed one attempt for each step. -/
def result (s : Script) (n : Nat) : Outcome :=
  match s.step n with
  | .succeed | .succeedAfter _ => .success
  | .transient => if n + 1 < s.steps.length then .retry else .failure
  | .permanent => .failure
  | .defect | .panic => .fatalFailure

/-- What the job leaves in the journal for attempt `n`. -/
def trace (s : Script) (id : JobId) (n : Nat) : Journal :=
  .ran id (.ofNat n) ::
    ((match s.step n with
      | .succeedAfter _ => [.woke id]
      | _ => []) ++
    if (s.result n).isFailure then [.failureHook id] else [])

/-- The number of attempts that are allowed. -/
def limit (s : Script) : Nat := max s.steps.length 1

theorem lt_length_of_transient {s : Script} {n : Nat} (h : s.step n = .transient) :
    n < s.steps.length := by
  by_contra hlen
  rw [step, List.getD_eq_default _ _ (by omega)] at h
  cases h

theorem toInt_ofNat {n : Nat} (h : n < 2 ^ 31) : (Int32.ofNat n).toInt = n :=
  Int32.toInt_ofNat_of_lt h

theorem stepAt_ofNat (s : Script) {n : Nat} (h : n < 2 ^ 31) : s.stepAt (.ofNat n) = s.step n := by
  rw [stepAt, toInt_ofNat h, if_neg (by omega), Int.toNat_natCast, step]

end Script

/-- Roster and tables hold the same jobs, and the store takes every write. -/
structure Index.Sound (x : MemoryIndex) : Prop where
  matched : Matched x.roster x.stored
  accepts : x.store.refusing = false

theorem Roster.get?_eq_none_iff {r : Roster} {id : JobId} :
    r.get? id = none ↔ ¬Held r.jobs id := by
  rw [← contains_iff, contains, Bool.not_eq_true, Option.isSome_eq_false_iff,
    Option.isNone_iff_eq_none]

namespace Index.Sound

variable {x y : MemoryIndex}

/-- A job that is deleted is not there any more. -/
theorem deleted (hx : x.Sound) {ids : List JobId} (hdel : x.delete ids = .ok y) (id : JobId)
    (hid : id ∈ ids) : y.Sound ∧ y.roster.get? id = none := by
  have hdrop := Index.delete_dropped hdel
  obtain ⟨-, hindex⟩ := Index.delete_eq_ok_iff.mp hdel
  refine ⟨⟨hdrop.matched hx.matched, ?_⟩, Roster.get?_eq_none_iff.mpr (hdrop.gone id hid).1⟩
  rw [hindex]
  exact hx.accepts

/-- One that is put off has four fields changed. -/
theorem rescheduled (hx : x.Sound) {j : Job} (hj : j ∈ x.roster.jobs) {running : Bool}
    {attempt : Int32} {due : Int64} {payload : ByteArray}
    (hres : x.reschedule j.id running attempt due payload = .ok y) :
    y.Sound ∧ y.roster.get? j.id = some { j with running, attempt, due, payload } := by
  have hrec := Index.reschedule_recorded hx.matched hj hres
  have hmatched := hrec.matched hx.matched
  obtain ⟨-, -, -, hindex⟩ := Index.reschedule_eq_ok_iff.mp hres
  refine ⟨⟨hmatched, ?_⟩, hmatched.get?_eq_some_iff.mpr ⟨hrec.kept.1, rfl⟩⟩
  rw [hindex]
  exact hx.accepts

end Index.Sound

namespace Scripted

@[simp] theorem outcome_behaviour (p : Parameters) (s : Script) :
    (behaviour p s).outcome = (s.stepAt p.attempt).outcome := by
  cases h : s.stepAt p.attempt <;>
    simp [behaviour, attempt, h, Behaviour.outcome, ending, Step.outcome, WorkError.isDefect,
      WorkError.isTransient]

/-- A record of the job `id` that follows `s` and awaits attempt `n`, marked or not. -/
structure Awaits (id : JobId) (s : Script) (n : Nat) (j : Job) : Prop where
  id : j.id = id
  factory : j.factory = Scripted.factory
  lifespan : j.lifespan = immortal
  attempt : j.attempt = .ofNat n
  maxAttempts : j.maxAttempts = .ofNat s.limit
  payload : j.payload = s.toJson.compact.toUTF8

theorem awaits_job (id : JobId) (created : Int64) (s : Script) :
    Awaits id s 0 (job id created s.steps s.backoffMillis) := ⟨rfl, rfl, rfl, rfl, rfl, rfl⟩

section

variable {r : Runner} {id : JobId} {s : Script} {n : Nat} {j : Job} {began ended : Moment}
  {d : Desk (Switched Tables)}

theorem Awaits.attempts (h : Awaits id s n j) (hr : r.Plays) (began : Moment) :
    r.Attempts began j (behaviour j.parameters s) := by
  refine ⟨by simp [Job.isExpired, h.lifespan], ?_⟩
  rw [hr.decode h.factory, decoder, h.payload, s.ofPayload?_toJson]

theorem Awaits.outcome (h : Awaits id s n j) (hn : n < 2 ^ 31) :
    (behaviour j.parameters s).outcome = (s.step n).outcome := by
  rw [outcome_behaviour, ← s.stepAt_ofNat hn, ← h.attempt]
  rfl

/-- The limit is reached with the last step. -/
theorem Awaits.isSpent_iff (h : Awaits id s n j) (hlen : s.steps.length < 2 ^ 31)
    (hn : n < s.limit) : j.isSpent (succClamped j.attempt) = true ↔ s.limit = n + 1 := by
  have hlimit : s.limit < 2 ^ 31 := by unfold Script.limit; omega
  have hmax : j.maxAttempts.toInt = s.limit := by rw [h.maxAttempts, Script.toInt_ofNat hlimit]
  have hunlimited : j.maxAttempts ≠ unlimited := by
    intro heq
    rw [heq] at hmax
    exact absurd hmax (by rw [show unlimited.toInt = -1 from by decide]; omega)
  have hattempt : j.attempt.toInt = n := by rw [h.attempt, Script.toInt_ofNat (by omega)]
  have htop : Int32.maxValue.toInt = 2 ^ 31 - 1 := by decide
  rw [Job.isSpent_iff, toInt_succClamped_eq_min, hmax, hattempt, htop]
  constructor
  · rintro ⟨-, hle⟩
    omega
  · intro heq
    exact ⟨hunlimited, by omega⟩

/-- If the job is given up, the outcome says so, and its own hook is called. -/
theorem Awaits.of_cause (h : Awaits id s n j) (hr : r.Plays) (hlen : s.steps.length < 2 ^ 31)
    (hn : n < s.limit) {fatal : Bool} {reason : String} {told : Option Hooks}
    {ran : Option Behaviour} (hcause : Cause r began j fatal reason told ran) :
    ran = some (behaviour j.parameters s) ∧ told = some (behaviour j.parameters s).fresh ∧
      s.result n = Runner.givenUp fatal := by
  have hlimit : n < 2 ^ 31 := by unfold Script.limit at hn; omega
  have hb := h.attempts hr began
  have hunique : ∀ {b}, r.Attempts began j b → b = behaviour j.parameters s := fun hb' =>
    Except.ok.inj (hb'.2.symm.trans hb.2)
  have houtcome := h.outcome hlimit
  cases hcause with
  | expired hexp => exact absurd (hexp.symm.trans hb.1) (by simp)
  | undecodable _ hdec => cases hdec.symm.trans hb.2
  | exhausted hb' ho hspent =>
    obtain rfl := hunique hb'
    refine ⟨rfl, rfl, ?_⟩
    have hstep : s.step n = .transient := by
      cases hs : s.step n <;> simp_all [Step.outcome]
    have hlast := (h.isSpent_iff hlen hn).mp hspent
    rw [Script.result, hstep]
    exact if_neg (by unfold Script.limit at hlast; omega)
  | unsaved hb' _ _ hsaved =>
    obtain rfl := hunique hb'
    cases hsaved
  | failed hb' ho =>
    obtain rfl := hunique hb'
    cases hs : s.step n <;> simp_all [Step.outcome, Script.result, Runner.givenUp, behaviour]
  | defective hb' ho =>
    obtain rfl := hunique hb'
    cases hs : s.step n <;> simp_all [Step.outcome, Script.result, Runner.givenUp, behaviour]
  | panicked hb' ho =>
    obtain rfl := hunique hb'
    cases hs : s.step n <;> simp_all [Step.outcome, Script.result, Runner.givenUp]

theorem Awaits.next (h : Awaits id s n j) (hn : n + 1 < 2 ^ 31) {due : Int64} :
    Awaits id s (n + 1) { j with running := false, attempt := succClamped j.attempt, due } where
  id := h.id
  factory := h.factory
  lifespan := h.lifespan
  attempt := by
    have htop : Int32.maxValue.toInt = 2 ^ 31 - 1 := by decide
    rw [← Int32.toInt_inj, toInt_succClamped_eq_min, h.attempt, Script.toInt_ofNat (by omega),
      Script.toInt_ofNat hn, htop]
    omega
  maxAttempts := h.maxAttempts
  payload := h.payload

/-- What an attempt notes is what the trace of the job begins with. -/
theorem Awaits.about_attempt (h : Awaits id s n j) (hn : n < 2 ^ 31) :
    Journal.about id ((behaviour j.parameters s).attempt.opening ++
        (behaviour j.parameters s).attempt.closing) ++
      (if (s.result n).isFailure then [.failureHook id] else []) = s.trace id n := by
  have hid : j.parameters.id = id := h.id
  have hattempt : j.parameters.attempt = .ofNat n := h.attempt
  have hstep : s.stepAt j.parameters.attempt = s.step n := by rw [hattempt, s.stepAt_ofNat hn]
  rw [behaviour, hstep, Script.trace]
  cases s.step n <;>
    simp [Scripted.attempt, note, Journal.about, Journal.named, Entry.job, hid, hattempt]

/-- Of those who are told that the job is given up, only the job itself leaves an entry about it. -/
theorem Awaits.about_parties (h : Awaits id s n j) (hr : r.Plays)
    (hunique : (d.index.roster.jobs.map Job.id).Nodup) (fatal : Bool) (reason : String) :
    Journal.about id ((r.parties d.index j fatal reason
      (some (behaviour j.parameters s).fresh)).flatMap Party.notes) = [.failureHook id] := by
  have hothers : ∀ fallen : List Job, (∀ k ∈ fallen, k.id ≠ id) →
      Journal.about id ((fallen.map (r.bystander j.id)).flatMap Party.notes) = [] := by
    intro fallen hfallen
    induction fallen with
    | nil => rfl
    | cons k rest ih =>
      rw [List.map_cons, List.flatMap_cons, Journal.about_append,
        ih fun i hi => hfallen i (List.mem_cons_of_mem _ hi), List.append_nil]
      exact hr.about_hookNotes (hfallen k List.mem_cons_self)
  have hfallen : ∀ k ∈ r.fallen d.index j, k.id ≠ id := by
    intro k hk
    unfold Runner.fallen at hk
    split at hk
    · exact h.id ▸ ((Runner.mem_casualties_iff hunique).mp hk).2.1
    · cases hk
  have hid : j.parameters.id = id := h.id
  rw [Runner.parties, List.flatMap_cons, Journal.about_append, hothers _ hfallen, List.append_nil]
  simp [Party.notes, hookNotes, behaviour, note, Journal.about, Journal.named, Entry.job, hid]

/-- **An attempt comes to what the script says**, whoever makes it and when.  The job then awaits
the next attempt, or is gone. -/
theorem executed (hr : r.Plays) (hlen : s.steps.length < 2 ^ 31) (hd : d.index.Sound)
    (hj : d.index.roster.get? id = some j) (h : Awaits id s n j) (hn : n < s.limit)
    (began ended : Moment) :
    ∃ d', r.executeBetween began ended j d = (.done (s.result n), d') ∧ d'.index.Sound ∧
      Journal.about id d'.notes = Journal.about id d.notes ++ s.trace id n ∧
      (s.result n = .retry → ∃ k, d'.index.roster.get? id = some k ∧ Awaits id s (n + 1) k) ∧
      (s.result n ≠ .retry → d'.index.roster.get? id = none) := by
  have hword : n < 2 ^ 31 := by unfold Script.limit at hn; omega
  have hmem : j ∈ d.index.roster.jobs := (hd.matched.get?_eq_some_iff.mp hj).1
  have ha := Runner.accepting hd.matched hd.accepts hmem
  have hb := h.attempts hr began
  have hunique : ∀ {b}, r.Attempts began j b → b = behaviour j.parameters s := fun hb' =>
    Except.ok.inj (hb'.2.symm.trans hb.2)
  have houtcome := h.outcome hword
  have htrace := h.about_attempt hword
  have houtturn := r.executeBetween_outturn began ended j d
  generalize r.executeBetween began ended j d = left at houtturn ⊢
  cases houtturn with
  | succeeded hb' ho hdel =>
    obtain rfl := hunique hb'
    have hresult : s.result n = .success := by
      cases hs : s.step n <;> simp_all [Step.outcome, Script.result]
    obtain ⟨hsound, hgone⟩ := hd.deleted hdel id (by simp [h.id])
    rw [hresult] at htrace ⊢
    refine ⟨_, rfl, hsound, ?_, by simp, fun _ => hgone⟩
    rw [← htrace]
    simp [Desk.emit, Desk.attempted, Desk.jot, Journal.about_append, Outcome.isFailure]
  | undeleted hdel =>
    obtain ⟨y, hy⟩ := ha.delete [j.id]
    cases hy.symm.trans hdel
  | @retried _ _ index hb' ho hspent hsaved hres =>
    obtain rfl := hunique hb'
    obtain rfl := Except.ok.inj hsaved
    have hstep : s.step n = .transient := by
      cases hs : s.step n <;> simp_all [Step.outcome]
    have hnext : n + 1 < s.steps.length := by
      have hlast := mt (h.isSpent_iff hlen hn).mpr (by simp [hspent])
      have hlt := s.lt_length_of_transient hstep
      unfold Script.limit at hlast
      omega
    have hresult : s.result n = .retry := by
      rw [Script.result, hstep]
      exact if_pos hnext
    obtain ⟨hsound, hagain⟩ := hd.rescheduled hmem hres
    have hget := (congrArg index.roster.get? h.id).symm.trans hagain
    rw [hresult] at htrace ⊢
    refine ⟨_, rfl, hsound, ?_, fun _ => ⟨_, hget, h.next (by omega)⟩, by simp⟩
    rw [← htrace]
    simp [Desk.emit, Desk.attempted, Desk.jot, Journal.about_append, Outcome.isFailure]
  | unscheduled hres =>
    obtain ⟨y, hy⟩ := ha.reschedule _ _ _
    cases hy.symm.trans hres
  | @dropped fatal reason live ran hcause =>
    obtain ⟨rfl, htold, hresult⟩ := h.of_cause hr hlen hn hcause
    have hne : Runner.givenUp fatal ≠ .retry := by cases fatal <;> simp [Runner.givenUp]
    have hfailure : (Runner.givenUp fatal).isFailure = true := by cases fatal <;> rfl
    obtain ⟨y, hdel⟩ := ha.delete (j.id :: (r.fallen d.index j).map Job.id)
    obtain ⟨hsound, hgone⟩ := hd.deleted hdel id (by simp [h.id])
    have hreturn : ∀ p ∈ r.parties d.index j fatal reason (some (behaviour j.parameters s).fresh),
        p.returns = true := by
      refine Runner.parties_return hr.calm d.index j fatal reason ?_
      rintro _ ⟨⟩
      exact (hr.calm j _ hb.2).1
    have hcalled := Party.called_eq_iff.mpr fun p hp => hreturn p (List.mem_of_mem_dropLast hp)
    have hparties := h.about_parties hr hd.matched.roster_unique fatal reason
    have hfail := Runner.fail_eq_inform (d := d.attempted j (some (behaviour j.parameters s))) live
      fatal reason (Runner.givenUp fatal) hdel
    rw [Desk.index_attempted, htold, if_pos (List.all_eq_true.mpr hreturn)] at hfail
    rw [hresult, hfailure, if_pos rfl] at htrace
    rw [hfail, hresult]
    refine ⟨_, rfl, hsound, ?_, fun heq => absurd heq hne, fun _ => hgone⟩
    rw [← htrace]
    simp [Desk.inform, hcalled, hparties, Desk.emit, Desk.attempted, Desk.jot, Journal.about_append]

end

end Scripted

end Backlog
