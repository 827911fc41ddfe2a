/-
# The run of a dispatcher is made of its steps

A rehearsal lets a dispatcher run, turn by turn.  In one turn a dispatcher may look for work many
times, take in whatever has been sent, and stop; an attempt may note something, or end.  All of this
is one step after the other, and none is taken for an attempt that is not in flight: each attempt in
flight stands in line or has an alarm, once, and nobody else does.  So what holds of a running
dispatcher holds between any two turns of a rehearsal, whatever its onlooker does.

* `Rehearsal.awaited`: the attempts that stand in line or have an alarm;
* `Rehearsal.Tended`: these are the attempts in flight, and each has a number of its own;
* `Rehearsal.Staged`: a rehearsal that is tended and has come from a dispatcher step by step;
  `Staged.look`, `Staged.serve`, `Staged.takeTurn`: one turn keeps that;
* `Rehearsal.takeTurn_steps`: **a turn is a chain of steps**;
* `Rehearsal.Beat`: what can happen to a rehearsal, turn by turn, and `Rehearsal.sleep_beats`,
  `Rehearsal.call_beats` and others: whatever an onlooker does is made of that;
* `Rehearsal.Rehearsed.running`: **the dispatcher of a rehearsal is a running one**, so that no job
  is in flight twice (`Rehearsal.Rehearsed.exclusive`);
* `Rehearsal.Rehearsed.awaited`, `Rehearsal.Rehearsed.stopped`: no attempt is forgotten, and a
  dispatcher that has stopped does nothing any more.
-/
import Backlog.Dispatch.Rehearsal
import Backlog.Proofs.Dispatch.Stranded
import Mathlib

namespace Backlog

open Relation
open scoped List

variable {σ : Type}

/-! ## 1. The tickets of a look for work -/

namespace Dispatch

variable [Storage σ] {d : Dispatch σ}

/-- What handing out a job keeps, whichever it is, a look for work keeps. -/
theorem handOut_keeps {P : Dispatch σ → Prop} (workers : Nat) (c : Conditions)
    (hissue : ∀ {d} (index : Index σ) (j : Job), P d → P (d.issue index j)) :
    ∀ (jobs : List Job) {d : Dispatch σ}, P d → P (d.handOut workers c jobs)
  | [], _, h => h
  | j :: rest, d, h => by
    unfold Dispatch.handOut
    split
    · exact handOut_keeps workers c hissue rest h
    · split
      · exact h
      · split
        · exact handOut_keeps workers c hissue rest h
        · rename_i index _
          exact handOut_keeps workers c hissue rest (hissue index j h)

theorem Numbered.pass (h : d.Numbered) (workers : Nat) (now : Int64) (c : Conditions) :
    (d.pass workers now c).Numbered :=
  handOut_keeps workers c (fun index j h => h.issue index j) _ h

/-- Those who were in flight stay there; the numbers of the others are new. -/
theorem exists_new_pass (d : Dispatch σ) (workers : Nat) (now : Int64) (c : Conditions) :
    ∃ new, (d.pass workers now c).inFlight = d.inFlight ++ new ∧
      ∀ t ∈ new, d.issued ≤ t.number := by
  have hkept : d.issued ≤ (d.pass workers now c).issued ∧
      ∃ new, (d.pass workers now c).inFlight = d.inFlight ++ new ∧
        ∀ t ∈ new, d.issued ≤ t.number := by
    refine handOut_keeps (P := fun e => d.issued ≤ e.issued ∧
      ∃ new, e.inFlight = d.inFlight ++ new ∧ ∀ t ∈ new, d.issued ≤ t.number) workers c ?_ _
        ⟨Nat.le_refl _, [], (List.append_nil _).symm, by simp⟩
    rintro e index j ⟨hissued, new, hflight, hnew⟩
    refine ⟨Nat.le_succ_of_le hissued, new ++ [⟨e.issued, { j with running := true }⟩], ?_, ?_⟩
    · simp only [issue, hflight, List.append_assoc]
    · intro t ht
      rcases List.mem_append.mp ht with ht | ht
      · exact hnew t ht
      · rw [List.mem_singleton.mp ht]
        exact hissued
  exact hkept.2

/-- The tickets of a look for work can be told by their numbers. -/
theorem Numbered.inFlight_pass (h : d.Numbered) (workers : Nat) (now : Int64) (c : Conditions) :
    (d.pass workers now c).inFlight = d.inFlight ++
      (d.pass workers now c).inFlight.filter fun t => d.issued ≤ t.number := by
  obtain ⟨new, hflight, hnew⟩ := exists_new_pass d workers now c
  have hold : d.inFlight.filter (fun t => decide (d.issued ≤ t.number)) = [] := by
    refine List.filter_eq_nil_iff.mpr fun t ht => ?_
    have hlt := h.below t ht
    simpa using hlt
  have hall : new.filter (fun t => decide (d.issued ≤ t.number)) = new :=
    List.filter_eq_self.mpr fun t ht => decide_eq_true (hnew t ht)
  rw [hflight, List.filter_append, hold, hall, List.nil_append]

/-- Nothing is different but what the store refuses. -/
def Stirred [Tabular σ] (d d' : Dispatch σ) : Prop :=
  ∃ store, Tabular.tables store = d.desk.index.stored ∧ d' = d.on store

variable [Tabular σ] {d' d'' : Dispatch σ}

theorem Stirred.refl (d : Dispatch σ) : d.Stirred d := ⟨d.desk.index.store, rfl, rfl⟩

theorem Stirred.trans (h : d.Stirred d') (h' : d'.Stirred d'') : d.Stirred d'' := by
  obtain ⟨store, hstore, rfl⟩ := h
  obtain ⟨store', hstore', rfl⟩ := h'
  exact ⟨store', hstore'.trans hstore, rfl⟩

end Dispatch

/-! ## 2. Who waits for a turn -/

/-- The attempt that a turn is about. -/
def Turn.ticket? : Turn → Option Ticket
  | dispatcher => none
  | launch t | work t _ | resume t _ | finish t _ => some t

theorem Turn.tickets_of_perm {turns turns' : List Turn} {t : Turn} (h : turns'.Perm (t :: turns)) :
    (turns'.filterMap ticket?).Perm (t.ticket?.toList ++ turns.filterMap ticket?) := by
  have hcons : (t :: turns).filterMap ticket? = t.ticket?.toList ++ turns.filterMap ticket? := by
    cases t <;> rfl
  exact hcons ▸ h.filterMap ticket?

namespace Rehearsal

/-- The attempts that stand in line or have an alarm. -/
def awaited (r : Rehearsal σ) : List Ticket :=
  (r.turns ++ r.alarms.map Prod.snd).filterMap Turn.ticket?

/-! To get in line changes nothing but the line. -/

@[simp]
theorem floor_queueUp (r : Rehearsal σ) (t : Turn) : (r.queueUp t).floor = r.floor := by
  unfold queueUp
  split <;> rfl

@[simp]
theorem phase_queueUp (r : Rehearsal σ) (t : Turn) : (r.queueUp t).phase = r.phase := by
  unfold queueUp
  split <;> rfl

/-- What getting in line does not change, alarms that go off do not change. -/
theorem foldl_queueUp {α : Type} (f : Rehearsal σ → α) (hf : ∀ r t, f (r.queueUp t) = f r)
    (due : List (Nat × Turn)) (r : Rehearsal σ) :
    f (due.foldl (fun r a => r.queueUp a.2) r) = f r := by
  induction due generalizing r with
  | nil => rfl
  | cons a due ih => exact (ih _).trans (hf r a.2)

@[simp]
theorem floor_moveTo (r : Rehearsal σ) (time : Nat) : (r.moveTo time).floor = r.floor :=
  foldl_queueUp floor floor_queueUp _ _

@[simp]
theorem phase_moveTo (r : Rehearsal σ) (time : Nat) : (r.moveTo time).phase = r.phase :=
  foldl_queueUp phase phase_queueUp _ _

/-- A dispatcher that does not get in line twice holds no ticket. -/
theorem awaited_queueUp (r : Rehearsal σ) (t : Turn) :
    (r.queueUp t).awaited.Perm (t.ticket?.toList ++ r.awaited) := by
  unfold queueUp
  split
  · rename_i hskip
    cases t with
    | dispatcher => exact .refl _
    | launch | work | resume | finish => simp [Turn.isDispatcher] at hskip
  · refine Turn.tickets_of_perm ?_
    rw [List.append_assoc]
    exact List.perm_middle

theorem awaited_setAlarm (r : Rehearsal σ) (time : Nat) (t : Turn) :
    (r.setAlarm time t).awaited.Perm (t.ticket?.toList ++ r.awaited) := by
  refine Turn.tickets_of_perm ?_
  simp only [setAlarm, List.map_append, List.map_cons, List.map_nil, ← List.append_assoc]
  exact List.perm_append_singleton ..

theorem awaited_foldl_queueUp (due : List (Nat × Turn)) (r : Rehearsal σ) :
    (due.foldl (fun r a => r.queueUp a.2) r).awaited.Perm
      ((due.map Prod.snd).filterMap Turn.ticket? ++ r.awaited) := by
  induction due generalizing r with
  | nil => exact .refl _
  | cons a due ih =>
    have htickets := Turn.tickets_of_perm (.refl (a.2 :: due.map Prod.snd))
    calc (due.foldl (fun r a => r.queueUp a.2) (r.queueUp a.2)).awaited
        ~ (due.map Prod.snd).filterMap Turn.ticket? ++ (r.queueUp a.2).awaited := ih _
      _ ~ (due.map Prod.snd).filterMap Turn.ticket? ++ (a.2.ticket?.toList ++ r.awaited) :=
          (awaited_queueUp r a.2).append_left _
      _ ~ a.2.ticket?.toList ++ ((due.map Prod.snd).filterMap Turn.ticket? ++ r.awaited) :=
          List.perm_append_comm_assoc ..
      _ = (a.2.ticket?.toList ++ (due.map Prod.snd).filterMap Turn.ticket?) ++ r.awaited :=
          (List.append_assoc ..).symm
      _ ~ ((a :: due).map Prod.snd).filterMap Turn.ticket? ++ r.awaited :=
          htickets.symm.append_right _

/-- Alarms that go off put in line whom they were set for. -/
theorem awaited_moveTo (r : Rehearsal σ) (time : Nat) : (r.moveTo time).awaited.Perm r.awaited := by
  have hparts : (r.alarms.filter (fun a => decide (a.1 ≤ time)) ++
      r.alarms.filter (fun a => decide (time < a.1))).Perm r.alarms := by
    simpa only [← decide_not, Nat.not_le] using
      List.filter_append_perm (fun a : Nat × Turn => decide (a.1 ≤ time)) r.alarms
  refine (awaited_foldl_queueUp _ _).trans ?_
  rw [awaited, ← List.filterMap_append]
  refine List.Perm.filterMap _ ?_
  refine (List.perm_append_comm_assoc ..).trans (List.Perm.append_left _ ?_)
  rw [← List.map_append]
  exact hparts.map _

/-! ## 3. Rehearsals on their way -/

variable [Storage σ] [Tabular σ]

/-- The attempts in flight are those that are awaited, and the one whose turn it is; each has a
number of its own, and there are none after the dispatcher has stopped. -/
structure Tended (held : Option Ticket) (r : Rehearsal σ) : Prop where
  numbered : r.floor.Numbered
  awaited : (held.toList ++ r.awaited).Perm r.floor.inFlight
  idle : r.phase = .stopped → r.floor.inFlight = []

/-- A rehearsal that is tended and has come from `d₀`, step by step. -/
structure Staged (s : Setup) (d₀ : Dispatch σ) (held : Option Ticket) (r : Rehearsal σ) : Prop
    extends Tended held r where
  steps : ReflTransGen (Dispatch.Step (max 1 s.workers) s.runner.cascade) d₀ r.floor

namespace Staged

variable {s : Setup} {d₀ d : Dispatch σ} {held held' : Option Ticket} {t : Ticket}
  {r r' : Rehearsal σ}

/-- It is enough that the same attempts are awaited, in any order. -/
theorem of_perm (h : Staged s d₀ held r) (hfloor : r'.floor = r.floor)
    (hphase : r'.phase = .stopped → r.phase = .stopped)
    (hawaited : (held'.toList ++ r'.awaited).Perm (held.toList ++ r.awaited)) :
    Staged s d₀ held' r' where
  numbered := hfloor ▸ h.numbered
  awaited := hfloor ▸ hawaited.trans h.awaited
  idle hstopped := hfloor ▸ h.idle (hphase hstopped)
  steps := hfloor ▸ h.steps

/-- Clocks and commands do not matter. -/
theorem aside (h : Staged s d₀ held r) (hfloor : r'.floor = r.floor)
    (hphase : r'.phase = .stopped → r.phase = .stopped) (hturns : r'.turns = r.turns)
    (halarms : r'.alarms = r.alarms) : Staged s d₀ held r' := by
  have hawaited : r'.awaited = r.awaited := by
    rw [Rehearsal.awaited, Rehearsal.awaited, hturns, halarms]
  exact h.of_perm hfloor hphase (hawaited ▸ .refl _)

/-- A step with the same tickets. -/
theorem step (h : Staged s d₀ held r)
    (hd : Dispatch.Step (max 1 s.workers) s.runner.cascade r.floor d)
    (hflight : d.inFlight = r.floor.inFlight) (hissued : d.issued = r.floor.issued) :
    Staged s d₀ held { r with floor := d } where
  numbered := h.numbered.of_sublist (hflight ▸ .refl _) hissued
  awaited := hflight ▸ h.awaited
  idle hstopped := hflight.trans (h.idle hstopped)
  steps := h.steps.tail hd

/-- A step that takes back the ticket whose turn it is. -/
theorem collect (h : Staged s d₀ (some t) r)
    (hd : Dispatch.Step (max 1 s.workers) s.runner.cascade r.floor d)
    (hflight : d.inFlight = (r.floor.collect t).inFlight) (hissued : d.issued = r.floor.issued) :
    Staged s d₀ none { r with floor := d } where
  numbered := by
    refine h.numbered.of_sublist ?_ hissued
    exact hflight ▸ List.filter_sublist
  awaited := by
    -- numbers differ, so none of the others is taken back with it
    have hothers : ∀ u ∈ r.awaited, decide (u.number ≠ t.number) = true := by
      have hdistinct : ((t :: r.awaited).map Ticket.number).Nodup :=
        (h.awaited.map _).nodup_iff.mpr h.numbered.distinct
      intro u hu
      refine decide_eq_true fun heq => ?_
      exact (List.nodup_cons.mp hdistinct).1 (heq ▸ List.mem_map.mpr ⟨u, hu, rfl⟩)
    have hleft := h.awaited.filter fun u => decide (u.number ≠ t.number)
    rw [Option.toList_some, List.singleton_append, List.filter_cons_of_neg (by simp),
      List.filter_eq_self.mpr hothers] at hleft
    exact hflight ▸ hleft
  idle hstopped := by
    rw [hflight, Dispatch.collect, h.idle hstopped]
    rfl
  steps := h.steps.tail hd

theorem mem_inFlight (h : Staged s d₀ (some t) r) : t ∈ r.floor.inFlight :=
  h.awaited.subset List.mem_cons_self

theorem queueUp {u : Turn} (h : Staged s d₀ u.ticket? r) : Staged s d₀ none (r.queueUp u) :=
  h.of_perm (floor_queueUp r u) (phase_queueUp r u).symm.trans (awaited_queueUp r u)

theorem setAlarm {u : Turn} (h : Staged s d₀ u.ticket? r) (time : Nat) :
    Staged s d₀ none (r.setAlarm time u) :=
  h.of_perm rfl id (awaited_setAlarm r time u)

theorem moveTo (h : Staged s d₀ none r) (time : Nat) : Staged s d₀ none (r.moveTo time) :=
  h.of_perm (floor_moveTo r time) (phase_moveTo r time).symm.trans (awaited_moveTo r time)

theorem jot (h : Staged s d₀ held r) (notes : List Note) : Staged s d₀ held (r.jot notes) :=
  h.step (.jot notes r.floor) rfl rfl

/-- Whoever was in flight is cut off. -/
theorem stop (h : Staged s d₀ none r) : Staged s d₀ none r.stop where
  numbered := h.numbered.of_sublist (List.nil_sublist _) rfl
  awaited := .refl _
  idle _ := rfl
  steps := h.steps.tail (.cutOff r.floor)

/-! ## 4. The turn of the dispatcher -/

/-- The new tickets get in line. -/
theorem look (h : Staged s d₀ none r) (hrun : r.phase = .running) :
    Staged s d₀ none (r.look s) where
  numbered := h.numbered.pass _ _ _
  awaited := by
    have hflight := h.numbered.inFlight_pass (max 1 s.workers) s.moment.now r.conditions
    set floor := r.floor.pass (max 1 s.workers) s.moment.now r.conditions with hfloor
    set launched := floor.inFlight.filter fun t => r.floor.issued ≤ t.number with hnew
    have htickets : (launched.map Turn.launch).filterMap Turn.ticket? = launched := by
      rw [List.filterMap_map]
      exact List.filterMap_some
    calc (r.look s).awaited
        = r.turns.filterMap Turn.ticket? ++
            (launched ++ (r.alarms.map Prod.snd).filterMap Turn.ticket?) := by
          simp only [Rehearsal.awaited, Rehearsal.look, List.filterMap_append, List.append_assoc,
            ← hfloor, ← hnew, htickets]
      _ ~ launched ++ (r.turns.filterMap Turn.ticket? ++
            (r.alarms.map Prod.snd).filterMap Turn.ticket?) := List.perm_append_comm_assoc ..
      _ = launched ++ r.awaited := by rw [Rehearsal.awaited, List.filterMap_append]
      _ ~ launched ++ r.floor.inFlight := h.awaited.append_left _
      _ ~ r.floor.inFlight ++ launched := List.perm_append_comm
      _ = floor.inFlight := hflight.symm
  idle hstopped := absurd (hrun.symm.trans hstopped) (by simp)
  steps := h.steps.tail (.pass s.moment.now r.conditions r.floor)

theorem obey (h : Staged s d₀ none r) (hrun : r.phase = .running) (c : Command) :
    Staged s d₀ none (r.obey s c) := by
  cases c with
  | enqueue batch =>
    simp only [Rehearsal.obey]
    cases hd : r.floor.enqueue batch with
    | error e => exact look (h.aside rfl id rfl rfl) hrun
    | ok floor =>
      obtain ⟨index, -, hfloor⟩ := Dispatch.enqueue_eq_ok hd
      have hstored : Staged s d₀ none { r with floor } := by
        refine h.step (.enqueue hd) ?_ ?_ <;> rw [hfloor]
      exact look (hstored.aside rfl id rfl rfl) hrun
  | wake => exact h.look hrun
  | shutdown =>
    have hdraining : Staged s d₀ none { r with phase := .draining (r.clock + s.shutdownMillis) } :=
      h.aside rfl (fun hstopped => nomatch hstopped) rfl rfl
    exact setAlarm (u := .dispatcher) hdraining _

/-- However much there is to be attended to. -/
theorem serve (fuel done : Nat) (h : Staged s d₀ none r) :
    Staged s d₀ none (r.serve s fuel done) := by
  induction fuel generalizing done r with
  | zero => exact h
  | succ fuel ih =>
    unfold Rehearsal.serve
    -- by its phase: it has stopped, it waits for the last attempts, it runs
    split
    · exact h
    · split
      · exact h.stop
      · exact h
    · rename_i hrun
      -- it is tired, or its poll interval is over, or it has been nudged, or there may be commands
      split_ifs
      · exact h.aside rfl id rfl rfl
      · have hlooked : Staged s d₀ none
            ({ r with nextPoll := r.nextPoll + s.pollMillis }.look s) :=
          look (h.aside rfl id rfl rfl) hrun
        exact ih _ (setAlarm (u := .dispatcher) hlooked _)
      · exact ih _ (look (h.aside rfl id rfl rfl) hrun)
      · cases hinbox : r.inbox with
        | nil => exact h
        | cons c rest =>
          have htaken : Staged s d₀ none { r with inbox := rest } := h.aside rfl id rfl rfl
          exact ih _ (htaken.obey hrun c)

/-! ## 5. The turn of an attempt -/

theorem ended (h : Staged s d₀ none r) (v : Verdict) : Staged s d₀ none (r.ended v) := by
  unfold Rehearsal.ended
  split
  · split
    · exact h
    · exact queueUp (u := .dispatcher) (h.aside rfl id rfl rfl)
  · exact queueUp (u := .dispatcher) h

theorem takeTurn (t : Turn) (h : Staged s d₀ t.ticket? r) : Staged s d₀ none (takeTurn s r t) := by
  cases t with
  | dispatcher => exact h.serve _ _
  | launch t =>
    have hd : Dispatch.Step (max 1 s.workers) s.runner.cascade r.floor _ :=
      .launch s.moment rfl h.mem_inFlight
    simp only [Rehearsal.takeTurn]
    cases hlaunch : r.floor.launch s.runner s.moment t with
    | mk left floor =>
      rw [hlaunch] at hd
      cases left with
      | inl verdict =>
        obtain ⟨desk, -, rfl⟩ := Dispatch.launch_eq_inl hlaunch
        exact (h.collect hd rfl rfl).ended verdict
      | inr b =>
        obtain ⟨desk, -, rfl⟩ := Dispatch.launch_eq_inr hlaunch
        exact queueUp (u := .work t b) (h.step hd rfl rfl)
  | work t b =>
    have hopened := h.jot b.attempt.opening
    simp only [Rehearsal.takeTurn]
    split
    · exact queueUp (u := .finish t b) (hopened.jot b.attempt.closing)
    · exact setAlarm (u := .resume t b) hopened _
  | resume t b => exact queueUp (u := .finish t b) (h.jot b.attempt.closing)
  | finish t b =>
    have hd : Dispatch.Step (max 1 s.workers) s.runner.cascade r.floor _ :=
      .finish s.moment b rfl h.mem_inFlight
    exact (h.collect hd rfl rfl).ended _

/-- Whoever is first in line has the turn. -/
theorem turn {rest : List Turn} {t : Turn} (h : Staged s d₀ none r) (hturns : r.turns = t :: rest) :
    Staged s d₀ none (Rehearsal.takeTurn s { r with turns := rest } t) := by
  have hawaited : r.awaited ~ t.ticket?.toList ++ { r with turns := rest }.awaited := by
    refine Turn.tickets_of_perm ?_
    rw [hturns]
    exact .refl _
  exact takeTurn t (h.of_perm rfl id hawaited.symm)

end Staged

/-- **A turn is a chain of steps.**  Whoever is first in line, and however much is to be attended
to: as far as the attempts in flight are those that are awaited, the dispatcher is led by its own
steps from the beginning of the turn to the end, and the attempts in flight are those that are
awaited again. -/
theorem takeTurn_steps {s : Setup} {r : Rehearsal σ} {rest : List Turn} {t : Turn}
    (h : Tended none r) (hturns : r.turns = t :: rest) :
    ReflTransGen (Dispatch.Step (max 1 s.workers) s.runner.cascade) r.floor
        (takeTurn s { r with turns := rest } t).floor ∧
      Tended none (takeTurn s { r with turns := rest } t) := by
  have hstart : Staged s r.floor none r := ⟨h, .refl⟩
  have hend := hstart.turn hturns
  exact ⟨hend.steps, hend.toTended⟩

/-! ## 6. All that can happen -/

/-- What can happen to a rehearsal while its onlooker sees to it. -/
inductive Beat (s : Setup) : Rehearsal σ → Rehearsal σ → Prop
  /-- The first in line takes its turn. -/
  | turn {r : Rehearsal σ} {t : Turn} {rest : List Turn} : r.turns = t :: rest →
    Beat s r (takeTurn s { r with turns := rest } t)
  /-- A dispatcher that has tired gets in line again. -/
  | rise (r : Rehearsal σ) : Beat s r ({ r with resting := false }.queueUp .dispatcher)
  /-- The clock moves. -/
  | tick (r : Rehearsal σ) (time : Nat) : Beat s r (r.moveTo time)
  /-- A command is sent. -/
  | post (r : Rehearsal σ) (c : Command) :
    Beat s r ({ r with inbox := r.inbox ++ [c], reply := none }.queueUp .dispatcher)
  /-- The conditions change. -/
  | conditions (r : Rehearsal σ) (c : Conditions) : Beat s r { r with conditions := c }
  /-- The store changes its mind about what it refuses. -/
  | stir {r : Rehearsal σ} {store : σ} : Tabular.tables store = r.floor.desk.index.stored →
    Beat s r { r with floor := r.floor.on store }

variable {s : Setup} {r r' : Rehearsal σ}

theorem takeTurns_beats (s : Setup) (n : Nat) (r : Rehearsal σ) :
    ReflTransGen (Beat s) r (takeTurns s n r) := by
  induction n generalizing r with
  | zero => exact .refl
  | succ n ih =>
    unfold takeTurns
    split
    · exact .refl
    · rename_i t rest hturns
      exact .head (.turn hturns) (ih _)

theorem takeRound_beats (s : Setup) (r : Rehearsal σ) :
    ReflTransGen (Beat s) r (r.takeRound s) := by
  have hround := takeTurns_beats s roundLength r
  simp only [takeRound]
  split
  · exact hround.tail (.rise _)
  · exact hround

theorem settleWithin_beats (s : Setup) (fuel : Nat) (r : Rehearsal σ) :
    ReflTransGen (Beat s) r (r.settleWithin s fuel) := by
  induction fuel generalizing r with
  | zero => exact .refl
  | succ fuel ih =>
    unfold settleWithin
    split
    · exact .refl
    · exact (takeRound_beats s r).trans (ih _)

theorem runUntil_beats (s : Setup) (time fuel : Nat) (r : Rehearsal σ) :
    ReflTransGen (Beat s) r (r.runUntil s time fuel) := by
  induction fuel generalizing r with
  | zero => exact .refl
  | succ fuel ih =>
    have hsettled : ReflTransGen (Beat s) r (r.settle s) := settleWithin_beats s patience r
    simp only [runUntil]
    split
    · split
      · exact (hsettled.tail (.tick _ _)).trans (ih _)
      · exact hsettled.tail (.tick _ _)
    · exact hsettled.tail (.tick _ _)

theorem runUntilSeen_beats (s : Setup) (done : Rehearsal σ → Bool) (fuel : Nat) (r : Rehearsal σ) :
    ReflTransGen (Beat s) r (r.runUntilSeen s done fuel) := by
  induction fuel generalizing r with
  | zero => exact .refl
  | succ fuel ih =>
    have hround := takeRound_beats s r
    simp only [runUntilSeen]
    split
    · exact hround
    · split
      · exact hround.trans (ih _)
      · split
        · exact (hround.tail (.tick _ _)).trans (ih _)
        · exact hround

theorem sleep_beats (s : Setup) (millis : Nat) (r : Rehearsal σ) :
    ReflTransGen (Beat s) r (r.sleep s millis) := by
  unfold sleep
  split
  · exact .refl
  · exact runUntil_beats s _ _ r

theorem send_beats (s : Setup) (c : Command) (r : Rehearsal σ) :
    ReflTransGen (Beat s) r (r.send s c).2 := by
  have hroom :
      ReflTransGen (Beat s) r (if r.mayAct then r else r.runUntilSeen s mayAct patience) := by
    split
    · exact .refl
    · exact runUntilSeen_beats s mayAct patience r
  simp only [send]
  generalize (if r.mayAct then r else r.runUntilSeen s mayAct patience) = ready at hroom ⊢
  split
  · exact hroom
  · exact hroom.tail (.post _ c)

/-- To enqueue a batch and to shut down are calls, and to wake the dispatcher is to send. -/
theorem call_beats (s : Setup) (c : Command) (r : Rehearsal σ) :
    ReflTransGen (Beat s) r (r.call s c).2 := by
  have hsent := send_beats s c r
  unfold call
  split
  · rename_i hanswer
    exact hanswer ▸ hsent
  · rename_i hanswer
    rw [hanswer] at hsent
    exact hsent.trans (runUntilSeen_beats s (fun r => r.reply.isSome) patience _)

theorem drain_beats (s : Setup) (steps : Nat) (r : Rehearsal σ) :
    ReflTransGen (Beat s) r (r.drain s steps) := by
  induction steps generalizing r with
  | zero => exact .refl
  | succ steps ih =>
    unfold drain
    split
    · exact .refl
    · exact (sleep_beats s 5 r).trans (ih _)

/-! ## 7. What holds between any two turns -/

theorem Staged.beat {d₀ : Dispatch σ} (h : Staged s d₀ none r) (hb : Beat s r r') :
    Staged s d₀ none r' := by
  cases hb with
  | turn hturns => exact h.turn hturns
  | rise => exact queueUp (u := .dispatcher) (h.aside rfl id rfl rfl)
  | tick time => exact h.moveTo time
  | post => exact queueUp (u := .dispatcher) (h.aside rfl id rfl rfl)
  | conditions => exact h.aside rfl id rfl rfl
  | stir hs => exact h.step (.stir hs) rfl rfl

/-- Nobody who holds a ticket stands in the line of a dispatcher that has stopped. -/
theorem Beat.of_stopped (hb : Beat s r r') (h : Tended none r) (hstopped : r.phase = .stopped) :
    r'.phase = .stopped ∧ r.floor.Stirred r'.floor := by
  have hsame : ∀ {r' : Rehearsal σ}, r'.phase = r.phase → r'.floor = r.floor →
      r'.phase = .stopped ∧ r.floor.Stirred r'.floor :=
    fun hphase hfloor => ⟨hphase.trans hstopped, hfloor ▸ .refl _⟩
  cases hb with
  | @turn t rest hturns =>
    have hnobody : r.awaited = [] := (h.idle hstopped ▸ h.awaited).eq_nil
    have hticket : t.ticket? = none := by
      refine List.forall_none_of_filterMap_eq_nil hnobody t ?_
      simp [hturns]
    cases t with
    | dispatcher =>
      have hturn : takeTurn s { r with turns := rest } .dispatcher = { r with turns := rest } := by
        simp only [takeTurn, serve, hstopped]
      rw [hturn]
      exact hsame rfl rfl
    | launch | work | resume | finish => cases hticket
  | rise => exact hsame (phase_queueUp _ _) (floor_queueUp _ _)
  | tick time => exact hsame (phase_moveTo r time) (floor_moveTo r time)
  | post c => exact hsame (phase_queueUp _ _) (floor_queueUp _ _)
  | conditions => exact hsame rfl rfl
  | stir hs => exact ⟨hstopped, _, hs, rfl⟩

/-- The states of a rehearsal that was started on an index whose roster and tables hold the same
jobs, whatever its onlooker does. -/
inductive Rehearsed (s : Setup) : Rehearsal σ → Prop
  | start {c : Conditions} {x : Index σ} {r : Rehearsal σ} : Matched x.roster x.stored →
    Rehearsal.start s c x = .ok r → Rehearsed s r
  | beat {r r' : Rehearsal σ} : Rehearsed s r → Beat s r r' → Rehearsed s r'

namespace Rehearsed

/-- Whatever is made of beats leads on. -/
theorem trans (h : Rehearsed s r) (hb : ReflTransGen (Beat s) r r') : Rehearsed s r' := by
  induction hb with
  | refl => exact h
  | tail _ hb ih => exact ih.beat hb

theorem staged (h : Rehearsed s r) : ∃ d₀,
    Dispatch.Running (max 1 s.workers) s.runner.cascade d₀ ∧ Staged s d₀ none r := by
  induction h with
  | @start c x r hm hr =>
    unfold Rehearsal.start at hr
    cases hclear : x.clearRunning with
    | error e =>
      rw [hclear] at hr
      cases hr
    | ok y =>
      rw [hclear] at hr
      cases hr
      exact ⟨_, .start hm hclear, ⟨⟨List.nodup_nil, by simp⟩, .refl _, fun _ => rfl⟩, .refl⟩
  | beat _ hb ih =>
    obtain ⟨d₀, hd₀, hstaged⟩ := ih
    exact ⟨d₀, hd₀, hstaged.beat hb⟩

/-- **The dispatcher of a rehearsal is a running one.**  So every invariant of running dispatchers
holds between any two turns of every rehearsal. -/
theorem running (h : Rehearsed s r) :
    Dispatch.Running (max 1 s.workers) s.runner.cascade r.floor := by
  obtain ⟨d₀, hd₀, hstaged⟩ := h.staged
  exact hd₀.trans hstaged.steps

/-- **No job is in flight twice in a rehearsal**, and no more of them than workers. -/
theorem exclusive (h : Rehearsed s r) (hs : s.runner.cascade = false) :
    r.floor.Exclusive (max 1 s.workers) :=
  Dispatch.exclusive_of_running (hs ▸ h.running)

/-- **No attempt is forgotten.**  Each attempt in flight stands in line or has an alarm, once. -/
theorem awaited (h : Rehearsed s r) : r.awaited.Perm r.floor.inFlight := by
  obtain ⟨d₀, -, hstaged⟩ := h.staged
  exact hstaged.awaited

/-- **A dispatcher that has stopped does nothing any more.**  Nothing is in flight, and whatever
happens, the roster and the tables stay as they are. -/
theorem stopped (h : Rehearsed s r) (hstopped : r.phase = .stopped)
    (hb : ReflTransGen (Beat s) r r') :
    r'.phase = .stopped ∧ r'.floor.inFlight = [] ∧ r.floor.Stirred r'.floor := by
  have hend : r'.phase = .stopped ∧ r.floor.Stirred r'.floor := by
    induction hb with
    | refl => exact ⟨hstopped, .refl _⟩
    | tail hb hlast ih =>
      obtain ⟨d₀, -, hstaged⟩ := (h.trans hb).staged
      obtain ⟨hphase, hstirred⟩ := hlast.of_stopped hstaged.toTended ih.1
      exact ⟨hphase, ih.2.trans hstirred⟩
  obtain ⟨d₀, -, hstaged⟩ := (h.trans hb).staged
  exact ⟨hend.1, hstaged.idle hend.1, hend.2⟩

/-- Nothing is in flight when this dispatcher is told to shut down, so it stops at once. -/
example :
    let s : Setup := { runner := { registry := {} }, moment := { now := 0 } }
    ((Rehearsal.start s {} (Index.fresh .runToCompletion)).toOption.map fun r =>
      (r.shutdown s).2.phase) = some .stopped := by decide +kernel

end Rehearsed

end Rehearsal

end Backlog
