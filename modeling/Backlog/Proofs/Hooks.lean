/-
# Who is still told when a failure hook breaks off

An attempt is made apart: if the code of a job breaks off there, the job is given up like one that
hit a defect.  The failure hooks are called later, one after the other, when the jobs are gone
already, and none of them is called apart.  One that breaks off takes with it all that was still to
come: the hooks of the next ones, every announcement from its own on, and the verdict.

* `Party`: one of those who are told, with the hooks that are called and what is announced once they
  have returned; `Party.announced` and `Party.called`: how far one gets with a list of them;
* `Runner.Outturn`: all that a run may come to (`Runner.executeBetween_outturn`), whatever the hooks
  do;
* `Runner.fail_eq_inform`: what is left once a job is given up, to the last event and note;
* `Runner.told_up_to_break`: **whatever the attempt does, the verdict of a job that is given up and
  all the announcements depend on the hooks alone: both are as they should be exactly if no hook
  breaks off**;
* `Runner.broken_hook_silences`: a hook that breaks off, and who is never told of it.
-/
import Backlog.Proofs.Rounds

namespace Backlog

variable {σ : Type}

/-! ## 1. Being told, one after the other -/

/-- Somebody who is to be told that a job is given up: the hooks that are called, if there are any,
and what is announced once they have returned. -/
structure Party where
  hooks : Option Hooks
  news : Event

namespace Party

def notes (p : Party) : List Note := hookNotes p.hooks

/-- The hook does not break off. -/
def returns (p : Party) : Bool := !p.hooks.any (·.onFailure.panics)

/-- Those who are announced: all before the first whose hook breaks off. -/
def announced (ps : List Party) : List Party := ps.takeWhile returns

/-- Those whose hooks are called: the same, and the one whose hook breaks off. -/
def called : List Party → List Party
  | [] => []
  | p :: rest => p :: if p.returns then called rest else []

theorem called_cons_of_returns {p : Party} (h : p.returns = true) (rest : List Party) :
    called (p :: rest) = p :: called rest := by
  rw [called, if_pos h]

theorem called_cons_of_breaks {p : Party} (h : p.returns = false) (rest : List Party) :
    called (p :: rest) = [p] := by
  rw [called, if_neg (by simp [h])]

/-- Everybody is announced exactly if no hook breaks off. -/
theorem announced_eq_iff {ps : List Party} : announced ps = ps ↔ ∀ p ∈ ps, p.returns = true :=
  List.takeWhile_eq_self_iff

/-- Everybody is called exactly if no hook breaks off but the last. -/
theorem called_eq_iff : ∀ {ps : List Party},
    called ps = ps ↔ ∀ p ∈ ps.dropLast, p.returns = true
  | [] => by simp [called]
  | [p] => by cases h : p.returns <;> simp [called, h]
  | p :: q :: rest => by
    rw [List.dropLast_cons_of_ne_nil (List.cons_ne_nil q rest), List.forall_mem_cons]
    cases h : p.returns with
    | true => simp [called_cons_of_returns h, called_eq_iff]
    | false => simp [called_cons_of_breaks h]

end Party

namespace Desk

/-- Tells one after the other, as far as that goes. -/
def inform (d : Desk σ) (ps : List Party) : Desk σ :=
  { d with
    events := d.events ++ (Party.announced ps).map Party.news
    notes := d.notes ++ (Party.called ps).flatMap Party.notes }

theorem inform_nil (d : Desk σ) : d.inform [] = d := by
  simp [inform, Party.announced, Party.called]

/-- A hook that returns makes room for the announcement, and for the next one. -/
theorem inform_cons_of_returns {p : Party} (h : p.returns = true) (ps : List Party)
    (d : Desk σ) : d.inform (p :: ps) = ((d.jot p.notes).emit p.news).inform ps := by
  simp [inform, jot, emit, Party.announced, Party.called_cons_of_returns h, h]

/-- After one that breaks off there is nothing but what it noted. -/
theorem inform_cons_of_breaks {p : Party} (h : p.returns = false) (ps : List Party)
    (d : Desk σ) : d.inform (p :: ps) = d.jot p.notes := by
  simp [inform, jot, Party.announced, Party.called_cons_of_breaks h, h]

end Desk

/-! ## 2. Giving a job up -/

namespace Runner

/-- A job that falls with another one. -/
def bystander (r : Runner) (failed : JobId) (k : Job) : Party :=
  ⟨r.freshHooks k, .cancelled k.id failed⟩

/-- All who are told that `j` is given up: `j` itself, and then whoever falls with it. -/
def parties (r : Runner) (x : Index σ) (j : Job) (fatal : Bool) (reason : String)
    (told : Option Hooks) : List Party :=
  ⟨told, .failed j.id fatal reason⟩ :: (r.fallen x j).map (r.bystander j.id)

/-- A calm runner tells everybody. -/
theorem parties_return {r : Runner} (hr : r.Calm) (x : Index σ) (j : Job) (fatal : Bool)
    (reason : String) {told : Option Hooks}
    (htold : ∀ h, told = some h → h.onFailure.panics = false) :
    ∀ p ∈ r.parties x j fatal reason told, p.returns = true := by
  have hreturns : ∀ (hooks : Option Hooks) (news : Event),
      (∀ h, hooks = some h → h.onFailure.panics = false) →
        (⟨hooks, news⟩ : Party).returns = true := by
    rintro (_ | h) news hh
    · rfl
    · simp [Party.returns, hh h rfl]
  rw [parties, List.forall_mem_cons, List.forall_mem_map]
  exact ⟨hreturns told _ htold, fun k _ => hreturns _ _ fun h hh => hr.freshHooks hh⟩

theorem cancelAll_eq_inform (r : Runner) (failed : JobId) : ∀ (fallen : List Job) (d : Desk σ),
    r.cancelAll failed fallen d = (d.inform (fallen.map (r.bystander failed)),
      (fallen.map (r.bystander failed)).all Party.returns)
  | [], d => by simp [cancelAll, Desk.inform_nil]
  | k :: rest, d => by
    rw [cancelAll_cons, List.map_cons, List.all_cons]
    cases hk : (r.bystander failed k).returns with
    | true =>
      have hpanics : (r.freshHooks k).any (·.onFailure.panics) = false := by
        simpa [Party.returns, bystander] using hk
      rw [if_neg (by simp [hpanics]), cancelAll_eq_inform r failed rest,
        Desk.inform_cons_of_returns hk, Bool.true_and]
      rfl
    | false =>
      have hpanics : (r.freshHooks k).any (·.onFailure.panics) = true := by
        simpa [Party.returns, bystander] using hk
      rw [if_pos hpanics, Desk.inform_cons_of_breaks hk, Bool.false_and]
      rfl

variable [Storage σ] {r : Runner} {began ended : Moment} {j : Job} {d : Desk σ}

/-- Once the deletion is taken, all that is left to happen is telling one after the other. -/
theorem fail_eq_inform {index : Index σ} (live : Option Hooks) (fatal : Bool) (reason : String)
    (outcome : Outcome)
    (hdel : d.index.delete (j.id :: (r.fallen d.index j).map Job.id) = .ok index) :
    r.fail j live fatal reason outcome d =
      (if (r.parties d.index j fatal reason (live.or (r.freshHooks j))).all Party.returns
        then .done outcome else .panicked,
       { d with index }.inform (r.parties d.index j fatal reason (live.or (r.freshHooks j)))) := by
  have hfallen : (if r.cascade then casualties d.index j.id else []) = r.fallen d.index j := rfl
  have hfresh : (r.registry.decode j).toOption.map Behaviour.fresh = r.freshHooks j := rfl
  simp only [fail, hfallen, hfresh, hdel, parties, List.all_cons]
  -- A job that cannot be decoded has no hook that could break off.
  cases htold : live.or (r.freshHooks j) with
  | none =>
    have hret : (⟨none, .failed j.id fatal reason⟩ : Party).returns = true := rfl
    simp only [if_true, cancelAll_eq_inform, Desk.inform_cons_of_returns hret, hret, Bool.true_and]
    simp [Party.notes, hookNotes, Desk.jot]
  | some h =>
    cases hp : h.onFailure.panics with
    | false =>
      have hret : (⟨some h, .failed j.id fatal reason⟩ : Party).returns = true := by
        simp [Party.returns, hp]
      simp only [Desk.callHook, hp, Bool.not_false, if_true, cancelAll_eq_inform,
        Desk.inform_cons_of_returns hret, hret, Bool.true_and]
      simp [Party.notes, hookNotes]
    | true =>
      have hret : (⟨some h, .failed j.id fatal reason⟩ : Party).returns = false := by
        simp [Party.returns, hp]
      simp [Desk.callHook, hp, Desk.inform_cons_of_breaks hret, hret, Party.notes, hookNotes]

/-- So it is if the job breaks off during the attempt. -/
theorem executeBetween_broken {b : Behaviour} {index : Index σ} (hb : r.Attempts began j b)
    (ho : b.outcome = none)
    (hdel : d.index.delete (j.id :: (r.fallen d.index j).map Job.id) = .ok index) :
    r.executeBetween began ended j d =
      (if (r.parties d.index j true "job panicked" (r.freshHooks j)).all Party.returns
        then .done .fatalFailure else .panicked,
       { d.attempted j (some b) with index }.inform
        (r.parties d.index j true "job panicked" (r.freshHooks j))) := by
  have hindex : (d.attempted j (some b)).index = d.index := d.index_attempted j (some b)
  rw [executeBetween_of_some (attempt?_eq_some_iff.mpr hb), conclude, ho]
  simp only
  rw [fail_eq_inform none true "job panicked" .fatalFailure (by rw [hindex]; exact hdel), hindex]
  rfl

/-! ## 3. All that a run may come to -/

/-- What a run comes to: a success, another attempt, or the job is given up for one of the seven
causes.  A success or another attempt may be turned down by the index, and nothing more is done. -/
inductive Outturn (r : Runner) (began ended : Moment) (j : Job) (d : Desk σ) :
    Verdict × Desk σ → Prop
  | succeeded {b : Behaviour} {index : Index σ} : r.Attempts began j b →
    b.outcome = some .success → d.index.delete [j.id] = .ok index →
    Outturn r began ended j d
      (.done .success, { d.attempted j (some b) with index }.emit (.succeeded j.id))
  | undeleted {b : Behaviour} {cause : IndexError} : d.index.delete [j.id] = .error cause →
    Outturn r began ended j d (.refused cause, d.attempted j (some b))
  | retried {b : Behaviour} {saved : Option ByteArray} {index : Index σ} : r.Attempts began j b →
    b.outcome = some .retry → j.isSpent (succClamped j.attempt) = false →
    b.spent.saved = .ok saved →
    d.index.reschedule j.id false (succClamped j.attempt) (r.nextDue ended j b.spent)
      (saved.getD j.payload) = .ok index →
    Outturn r began ended j d
      (.done .retry, { d.attempted j (some b) with index }.emit
        (.retrying j.id (succClamped j.attempt) j.maxAttempts (r.nextDue ended j b.spent)))
  | unscheduled {b : Behaviour} {attempt : Int32} {due : Int64} {payload : ByteArray}
    {cause : IndexError} : d.index.reschedule j.id false attempt due payload = .error cause →
    Outturn r began ended j d (.refused cause, d.attempted j (some b))
  | dropped {fatal : Bool} {reason : String} (live : Option Hooks) {ran : Option Behaviour} :
    Cause r began j fatal reason (live.or (r.freshHooks j)) ran →
    Outturn r began ended j d
      (r.fail j live fatal reason (givenUp fatal) (d.attempted j ran))

theorem retry_outturn {b : Behaviour} (hb : r.Attempts began j b) (ho : b.outcome = some .retry) :
    Outturn r began ended j d (r.retry ended j b.spent (d.attempted j (some b))) := by
  unfold retry
  cases hspent : j.isSpent (succClamped j.attempt) with
  | true =>
    simp only [hspent, if_true]
    exact .dropped (some b.spent) (.exhausted hb ho hspent)
  | false =>
    simp only [hspent, Bool.false_eq_true, if_false]
    cases hsaved : b.spent.saved with
    | error e => exact .dropped (some b.spent) (.unsaved hb ho hspent hsaved)
    | ok saved =>
      simp only [Desk.index_attempted]
      split
      · rename_i cause hres
        exact .unscheduled hres
      · rename_i index hres
        exact .retried hb ho hspent hsaved hres

theorem conclude_outturn {b : Behaviour} (hb : r.Attempts began j b) :
    Outturn r began ended j d (r.conclude ended j b (d.attempted j (some b))) := by
  unfold conclude
  cases ho : b.outcome with
  | none =>
    have hcause : Cause r began j true "job panicked" (r.freshHooks j) (some b) := by
      rw [freshHooks, hb.2]
      exact .panicked hb ho
    exact .dropped none hcause
  | some o =>
    cases o with
    | success =>
      simp only [Desk.index_attempted]
      split
      · rename_i cause hdel
        exact .undeleted hdel
      · rename_i index hdel
        exact .succeeded hb ho hdel
    | retry => exact retry_outturn hb ho
    | failure => exact .dropped (some b.spent) (.failed hb ho)
    | fatalFailure => exact .dropped (some b.spent) (.defective hb ho)

theorem executeBetween_outturn (r : Runner) (began ended : Moment) (j : Job) (d : Desk σ) :
    Outturn r began ended j d (r.executeBetween began ended j d) := by
  cases hexp : j.isExpired began.now with
  | true =>
    simp only [executeBetween, start, hexp, if_true]
    exact .dropped none (.expired hexp)
  | false =>
    cases hdec : r.registry.decode j with
    | error e =>
      have hcause : Cause r began j true e.message (r.freshHooks j) none := by
        rw [freshHooks, hdec]
        exact .undecodable hexp hdec
      simp only [executeBetween, start, hexp, Bool.false_eq_true, if_false, hdec]
      exact .dropped none hcause
    | ok b =>
      rw [executeBetween_of_some (attempt?_eq_some_iff.mpr ⟨hexp, hdec⟩)]
      exact conclude_outturn ⟨hexp, hdec⟩

/-! ## 4. As far as the first hook that breaks off -/

variable [Tabular σ]

/-- `j` was given up: it is gone with all that falls with it, and they were told as far as the hooks
let it come. -/
structure ToldOf (r : Runner) (j : Job) (fatal : Bool) (reason : String) (told : Option Hooks)
    (d : Desk σ) (v : Verdict) (d' : Desk σ) : Prop where
  index : Dropped d.index d'.index (j.id :: (r.fallen d.index j).map Job.id)
  verdict : v = if (r.parties d.index j fatal reason told).all Party.returns
    then .done (givenUp fatal) else .panicked
  events : d'.events = d.events ++
    (Party.announced (r.parties d.index j fatal reason told)).map Party.news
  notes : d'.notes = d.notes ++
    (Party.called (r.parties d.index j fatal reason told)).flatMap Party.notes

namespace ToldOf

variable {fatal : Bool} {reason : String} {told : Option Hooks} {v : Verdict} {d' : Desk σ}

theorem done_iff (h : r.ToldOf j fatal reason told d v d') :
    (∃ outcome, v = .done outcome) ↔
      ∀ p ∈ r.parties d.index j fatal reason told, p.returns = true := by
  rw [h.verdict, ← List.all_eq_true]
  split <;> simp_all

theorem events_iff (h : r.ToldOf j fatal reason told d v d') :
    d'.events = d.events ++ (r.parties d.index j fatal reason told).map Party.news ↔
      ∀ p ∈ r.parties d.index j fatal reason told, p.returns = true := by
  rw [h.events, List.append_cancel_left_eq, ← Party.announced_eq_iff]
  constructor
  · intro heq
    -- Who is announced comes first among all, so that as many as all are all.
    refine List.IsPrefix.eq_of_length (List.takeWhile_prefix _) ?_
    simpa using congrArg List.length heq
  · exact fun heq => by rw [heq]

/-- If no hook breaks off, there is nothing missing. -/
theorem givenUp_of_returns (h : r.ToldOf j fatal reason told d v d')
    (hall : ∀ p ∈ r.parties d.index j fatal reason told, p.returns = true) :
    GivenUp r j fatal reason told d d' where
  index := h.index
  events := by
    rw [h.events_iff.mpr hall]
    simp [parties, bystander]
  notes := by
    have hcalled := Party.called_eq_iff.mpr fun p hp => hall p (List.mem_of_mem_dropLast hp)
    rw [h.notes, hcalled]
    simp [parties, bystander, Party.notes, List.flatMap_map]

end ToldOf

theorem toldOf_of_fail (fatal : Bool) (reason : String) (live : Option Hooks) {index : Index σ}
    (hdel : d.index.delete (j.id :: (r.fallen d.index j).map Job.id) = .ok index) :
    r.ToldOf j fatal reason (live.or (r.freshHooks j)) d
      (r.fail j live fatal reason (givenUp fatal) d).1
      (r.fail j live fatal reason (givenUp fatal) d).2 := by
  rw [fail_eq_inform live fatal reason (givenUp fatal) hdel]
  exact ⟨Index.delete_dropped hdel, rfl, rfl, rfl⟩

/-- **How far everybody is told, whatever the attempt and the hooks do**, where the index takes
every write.  A run that ends in a success or in another attempt is as it should be.  Otherwise
there is one of the seven causes, a job that breaks off during the attempt among them, and the job
is gone with all that falls with it.  There is an outcome exactly if no hook that is called breaks
off; that is also when everybody is announced, and then nothing at all is missing.  Everybody's hook
is called exactly if none but the last breaks off. -/
theorem told_up_to_break (hm : Matched d.index.roster d.index.stored)
    (hj : j ∈ d.index.roster.jobs) (hdelete : ∀ ids, ∃ y, d.index.delete ids = .ok y)
    (hreschedule : ∀ attempt due payload, ∃ y,
      d.index.reschedule j.id false attempt due payload = .ok y)
    (r : Runner) (began ended : Moment) :
    ∃ v d', r.executeBetween began ended j d = (v, d') ∧
      ((v = .done .success ∨ v = .done .retry) ∧ r.Agrees began ended j d v d' ∨
        ∃ fatal reason told ran, Cause r began j fatal reason told ran ∧
          r.ToldOf j fatal reason told (d.attempted j ran) v d' ∧
          ((∃ outcome, v = .done outcome) ↔
            ∀ p ∈ r.parties d.index j fatal reason told, p.returns = true) ∧
          (d'.events = (d.attempted j ran).events ++
              (r.parties d.index j fatal reason told).map Party.news ↔
            ∀ p ∈ r.parties d.index j fatal reason told, p.returns = true) ∧
          ((∀ p ∈ r.parties d.index j fatal reason told, p.returns = true) →
            v = .done (givenUp fatal) ∧ GivenUp r j fatal reason told (d.attempted j ran) d') ∧
          (Party.called (r.parties d.index j fatal reason told)
              = r.parties d.index j fatal reason told ↔
            ∀ p ∈ (r.parties d.index j fatal reason told).dropLast, p.returns = true)) := by
  have houtturn := executeBetween_outturn r began ended j d
  generalize r.executeBetween began ended j d = left at houtturn ⊢
  refine ⟨left.1, left.2, rfl, ?_⟩
  cases houtturn with
  | succeeded hb ho hdel =>
    refine .inl ⟨.inl rfl, .succeeded hb ho (Index.delete_dropped hdel) ?_ rfl⟩
    simp [Desk.emit, Desk.attempted, Desk.jot]
  | retried hb ho hspent hsaved hres =>
    rw [nextDue] at hres
    refine .inl ⟨.inr rfl,
      .retried hb ho hspent hsaved rfl (Index.reschedule_recorded hm hj hres) ?_ rfl⟩
    simp [Desk.emit, Desk.attempted, Desk.jot, nextDue]
  | undeleted hdel =>
    obtain ⟨y, hy⟩ := hdelete [j.id]
    cases hy.symm.trans hdel
  | unscheduled hres =>
    obtain ⟨y, hy⟩ := hreschedule _ _ _
    cases hy.symm.trans hres
  | @dropped fatal reason live ran hcause =>
    have hindex : (d.attempted j ran).index = d.index := d.index_attempted j ran
    obtain ⟨y, hy⟩ := hdelete (j.id :: (r.fallen d.index j).map Job.id)
    have htold := toldOf_of_fail (d := d.attempted j ran) fatal reason live
      (by rw [hindex]; exact hy)
    have hdone := htold.done_iff
    have hevents := htold.events_iff
    have hverdict := htold.verdict
    rw [hindex] at hdone hevents hverdict
    refine .inr ⟨fatal, reason, _, ran, hcause, htold, hdone, hevents, fun hall => ⟨?_, ?_⟩,
      Party.called_eq_iff⟩
    · rw [hverdict, if_pos (List.all_eq_true.mpr hall)]
    · exact htold.givenUp_of_returns (by rwa [hindex])

/-! ## 5. A hook that breaks off in the middle -/

/-- The hooks of a job that notes when it is told, and then may break off. -/
def noting (id : JobId) (panics : Bool) : Hooks :=
  { onFailure := { notes := [⟨"told", .failureHook id⟩], panics } }

/-- Every attempt breaks off, and so does the failure hook of the jobs under the key `fragile`. -/
def brittle : Runner :=
  let decoder (panics : Bool) : Decoder := fun p _ => .ok
    { attempt := { ending := .panicked }, fresh := noting p.id panics }
  { registry := { decoders := [("http", decoder false), ("fragile", decoder true)] }
    cascade := true }

/-- `fetch` has been handed out, `parse` waits on it, and `report` waits on `parse`. -/
def lineDesk (parseWith : String) : Desk (Switched Tables) :=
  { index := (Index.fresh .runToCompletion).run
      [.insert [{ job := { handedOut with running := false } },
        Submission.waitingOn { job := { id := ⟨"parse"⟩, factory := parseWith, created := 2 } }
          handedOut.id,
        Submission.waitingOn { job := { id := ⟨"report"⟩, factory := "http", created := 3 } }
          ⟨"parse"⟩],
       .setRunning handedOut.id true] }

theorem fallen_line {key : String} (hkey : key = "http" ∨ key = "fragile") :
    (brittle.fallen (lineDesk key).index handedOut).map (fun k => (k.id, k.factory))
      = [(⟨"parse"⟩, key), (⟨"report"⟩, "http")] := by
  -- the runner holds functions, which are not evaluated; the index is all that matters
  have hcasualties : (casualties (lineDesk key).index ⟨"fetch"⟩).map (fun k => (k.id, k.factory))
      = [(⟨"parse"⟩, key), (⟨"report"⟩, "http")] := by
    rcases hkey with rfl | rfl <;> cbv
  exact hcasualties

theorem freshHooks_brittle {k : Job} (hk : k.factory = "http" ∨ k.factory = "fragile") :
    brittle.freshHooks k = some (noting k.id (k.factory == "fragile")) := by
  rcases hk with hk | hk <;> rw [freshHooks, Registry.decode, hk] <;> rfl

/-- Those who are told that `fetch` broke off. -/
def lineParties (parseWith : String) : List Party :=
  [⟨some (noting ⟨"fetch"⟩ false), .failed ⟨"fetch"⟩ true "job panicked"⟩,
    ⟨some (noting ⟨"parse"⟩ (parseWith == "fragile")), .cancelled ⟨"parse"⟩ ⟨"fetch"⟩⟩,
    ⟨some (noting ⟨"report"⟩ false), .cancelled ⟨"report"⟩ ⟨"fetch"⟩⟩]

theorem parties_line {key : String} (hkey : key = "http" ∨ key = "fragile") :
    brittle.parties (lineDesk key).index handedOut true "job panicked"
      (brittle.freshHooks handedOut) = lineParties key := by
  obtain ⟨parse, rest, hfallen, hparse, hrest⟩ := List.map_eq_cons_iff.mp (fallen_line hkey)
  obtain ⟨report, rest, rfl, hreport, hnone⟩ := List.map_eq_cons_iff.mp hrest
  obtain rfl := List.map_eq_nil_iff.mp hnone
  obtain ⟨hid, hfactory⟩ := Prod.mk.inj hparse
  obtain ⟨hid', hfactory'⟩ := Prod.mk.inj hreport
  have hfetch : brittle.freshHooks handedOut = _ := freshHooks_brittle (.inl rfl)
  have hparse' : brittle.freshHooks parse = _ := freshHooks_brittle (by rwa [hfactory])
  have hreport' : brittle.freshHooks report = _ := freshHooks_brittle (.inl hfactory')
  rw [parties, hfallen, hfetch]
  simp only [List.map_cons, List.map_nil, bystander, hparse', hreport', hid, hid', hfactory,
    hfactory']
  rfl

/-- What is left once `fetch` broke off. -/
theorem execute_line (key : String) (hkey : key = "http" ∨ key = "fragile") :
    ∃ index, index.roster.jobs = [] ∧
      brittle.executeBetween { now := 7 } { now := 9 } handedOut (lineDesk key) =
        (if (lineParties key).all Party.returns then .done .fatalFailure else .panicked,
          { (lineDesk key).attempted handedOut (some
              { attempt := { ending := .panicked }, fresh := noting ⟨"fetch"⟩ false }) with
            index }.inform (lineParties key)) := by
  have hids : (brittle.fallen (lineDesk key).index handedOut).map Job.id
      = [⟨"parse"⟩, ⟨"report"⟩] := by
    have hfallen := congrArg (List.map Prod.fst) (fallen_line hkey)
    rwa [List.map_map] at hfallen
  obtain ⟨index, hdel⟩ : ∃ y, (lineDesk key).index.delete
      (handedOut.id :: (brittle.fallen (lineDesk key).index handedOut).map Job.id) = .ok y :=
    ⟨_, Index.delete_eq_ok_iff.mpr ⟨rfl, rfl⟩⟩
  refine ⟨index, ?_, ?_⟩
  · have hall : ∀ k ∈ (lineDesk key).index.roster.jobs,
        k.id ∈ [handedOut.id, ⟨"parse"⟩, ⟨"report"⟩] := by
      rcases hkey with rfl | rfl <;> decide
    rw [hids] at hdel
    refine List.eq_nil_iff_forall_not_mem.mpr fun k hk => ?_
    obtain ⟨hmem, hout⟩ := (Index.delete_dropped hdel).mem_iff.mp hk
    exact hout (hall k hmem)
  · rw [← parties_line hkey]
    exact executeBetween_broken ⟨rfl, rfl⟩ rfl hdel

/-- Where no hook breaks off, everybody is told that an attempt did. -/
theorem told_up_to_break_line :
    Matched (lineDesk "http").index.roster (lineDesk "http").index.stored ∧
      handedOut ∈ (lineDesk "http").index.roster.jobs ∧
      (∀ ids, ∃ y, (lineDesk "http").index.delete ids = .ok y) ∧
      (∀ attempt due payload, ∃ y,
        (lineDesk "http").index.reschedule handedOut.id false attempt due payload = .ok y) ∧
      ∃ d' fatal reason told ran,
        brittle.executeBetween { now := 7 } { now := 9 } handedOut (lineDesk "http")
          = (.done .fatalFailure, d') ∧
        Cause brittle { now := 7 } handedOut fatal reason told ran ∧
        GivenUp brittle handedOut fatal reason told ((lineDesk "http").attempted handedOut ran) d' ∧
        d'.events = [.started handedOut.id 0, .failed handedOut.id true "job panicked",
          .cancelled ⟨"parse"⟩ handedOut.id, .cancelled ⟨"report"⟩ handedOut.id] := by
  have hm : Matched (lineDesk "http").index.roster (lineDesk "http").index.stored :=
    matched_run _ _
  have hj : handedOut ∈ (lineDesk "http").index.roster.jobs := by decide
  have ha := accepting hm rfl hj
  obtain ⟨index, -, hline⟩ := execute_line "http" (.inl rfl)
  obtain ⟨v, d', hexec, hleft⟩ :=
    told_up_to_break hm hj ha.delete ha.reschedule brittle { now := 7 } { now := 9 }
  obtain ⟨rfl, rfl⟩ := Prod.mk.inj (hexec.symm.trans hline)
  rcases hleft with ⟨hv, -⟩ | ⟨fatal, reason, told, ran, hcause, -, hdone, -, hall, -⟩
  · rcases hv with hv | hv <;> cases hv
  · exact ⟨hm, hj, ha.delete, ha.reschedule, _, fatal, reason, told, ran, hexec, hcause,
      (hall (hdone.mp ⟨.fatalFailure, rfl⟩)).2, rfl⟩

/-- **A hook that breaks off silences all that was to come**: `fetch`, `parse` and `report` are
gone, but neither `parse` nor `report` is announced, `report` is never told although it can be
decoded, and there is no outcome. -/
theorem broken_hook_silences :
    (brittle.executeBetween { now := 7 } { now := 9 } handedOut (lineDesk "fragile")).1
        = .panicked ∧
      (brittle.executeBetween { now := 7 } { now := 9 } handedOut (lineDesk "fragile")).2.events
        = [.started handedOut.id 0, .failed handedOut.id true "job panicked"] ∧
      (brittle.executeBetween { now := 7 } { now := 9 } handedOut (lineDesk "fragile")).2.notes
        = [⟨"told", .failureHook handedOut.id⟩, ⟨"told", .failureHook ⟨"parse"⟩⟩] ∧
      (brittle.executeBetween { now := 7 } { now := 9 } handedOut
        (lineDesk "fragile")).2.index.roster.jobs = [] ∧
      ((lineDesk "fragile").index.roster.get? ⟨"report"⟩).any
        (fun k => (brittle.freshHooks k).isSome) = true := by
  obtain ⟨index, hnone, hline⟩ := execute_line "fragile" (.inr rfl)
  rw [hline]
  exact ⟨rfl, rfl, rfl, hnone, by decide⟩

end Runner

end Backlog
