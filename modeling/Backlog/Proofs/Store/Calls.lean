/-
# What a caller sees of a store

A store can be called in six ways that change it, and whoever calls it sees whether a call goes
through and what can be loaded afterwards.  Two kinds of stores that a caller cannot tell apart are
related by something that every call keeps; and what is loaded from tables in memory is what a
caller could have written down.

* `StoreCall`, `answers`: the writes of a store, and what a caller sees of a series of them;
* `Simulation`: a relation between two kinds of stores that every call keeps, under which all
  answers are the same (`Simulation.answers_eq`);
* `Ledger`: what a caller can write down; `Ledger.Kept.follow` is the step lemma, one case a call,
  and `Ledger.Kept.confirms`, the run lemma.
-/
import Backlog.Store.Tables
import Backlog.Proofs.Order

namespace Backlog

/-! ## 1. Calls and answers -/

/-- A write, with all that it is called with. -/
inductive StoreCall
  | insert (batch : List Submission)
  | setRunning (id : JobId) (running : Bool)
  | reschedule (id : JobId) (running : Bool) (attempt : Int32) (due : Int64) (payload : ByteArray)
  | clearRunning
  | amend (jobs : List Job)
  | delete (ids : List JobId)

/-- What a caller sees of a write: whether it failed and why, and what is loaded afterwards. -/
structure Answer where
  result : Except StoreError Unit
  loaded : Except StoreError Snapshot

section

variable {σ τ : Type} [Storage σ] [Storage τ]

namespace StoreCall

def run (s : σ) : StoreCall → Except StoreError σ
  | insert batch => Storage.insert batch s
  | setRunning id running => Storage.setRunning id running s
  | reschedule id running attempt due payload => Storage.reschedule id running attempt due payload s
  | clearRunning => Storage.clearRunning s
  | amend jobs => Storage.amend jobs s
  | delete ids => Storage.delete ids s

/-- The store after a call; a call that fails leaves it as it was. -/
def after (c : StoreCall) (s : σ) : σ :=
  match c.run s with
  | .ok s => s
  | .error _ => s

def answer (c : StoreCall) (s : σ) : Answer :=
  { result := (c.run s).map fun _ => (), loaded := Storage.load (c.after s) }

end StoreCall

/-- The answers of a store to one call after the other. -/
def answers : List StoreCall → σ → List Answer
  | [], _ => []
  | c :: rest, s => c.answer s :: answers rest (c.after s)

/-- Both calls went through and left stores that are related, or both failed for the same reason. -/
inductive Alike {σ τ : Type} (R : σ → τ → Prop) : Except StoreError σ → Except StoreError τ → Prop
  | ok {s : σ} {t : τ} : R s t → Alike R (.ok s) (.ok t)
  | error (e : StoreError) : Alike R (.error e) (.error e)

theorem Alike.refl {σ : Type} : ∀ left : Except StoreError σ, Alike Eq left left
  | .ok _ => .ok rfl
  | .error e => .error e

theorem Alike.map_left {σ σ' τ : Type} {R : σ → τ → Prop} {R' : σ' → τ → Prop} {f : σ → σ'}
    (hf : ∀ {s t}, R s t → R' (f s) t) {left : Except StoreError σ} {right : Except StoreError τ}
    (h : Alike R left right) : Alike R' (left.map f) right := by
  cases h with
  | ok hR => exact .ok (hf hR)
  | error e => exact .error e

/-- A relation between stores that no call breaks, and under which the same is loaded. -/
structure Simulation (R : σ → τ → Prop) : Prop where
  call : ∀ {s t}, R s t → ∀ c : StoreCall, Alike R (c.run s) (c.run t)
  load : ∀ {s t}, R s t → Storage.load s = Storage.load t

namespace Simulation

variable {R : σ → τ → Prop} {s : σ} {t : τ}

theorem after (h : Simulation R) (hR : R s t) (c : StoreCall) : R (c.after s) (c.after t) := by
  have hcall := h.call hR c
  unfold StoreCall.after
  generalize c.run s = left at hcall ⊢
  generalize c.run t = right at hcall ⊢
  cases hcall with
  | ok hR' => exact hR'
  | error e => exact hR

theorem answer_eq (h : Simulation R) (hR : R s t) (c : StoreCall) : c.answer s = c.answer t := by
  have hload := h.load (h.after hR c)
  have hcall := h.call hR c
  unfold StoreCall.answer
  rw [hload]
  generalize c.run s = left at hcall ⊢
  generalize c.run t = right at hcall ⊢
  cases hcall with
  | ok _ => rfl
  | error e => rfl

theorem answers_eq (h : Simulation R) : ∀ (calls : List StoreCall) {s : σ} {t : τ}, R s t →
    answers calls s = answers calls t
  | [], _, _, _ => rfl
  | c :: rest, s, t, hR => by
    rw [answers, answers, h.answer_eq hR, h.answers_eq rest (h.after hR c)]

end Simulation

end

/-! ## 2. What is loaded -/

/-- What a caller can write down who sees which calls go through: the jobs that were inserted and
have not been deleted since, one after the other, and their rows. -/
structure Ledger where
  ids : List JobId := []
  guards : List Guard := []
  edges : List Edge := []

namespace Ledger

def follow (l : Ledger) : StoreCall → Except StoreError Unit → Ledger
  | .insert batch, .ok _ =>
    { ids := l.ids ++ batch.map Submission.id
      guards := l.guards ++ batch.flatMap Submission.guards
      edges := l.edges ++ batch.flatMap Submission.edges }
  | .delete ids, .ok _ =>
    { ids := l.ids.filter fun id => !ids.contains id
      guards := l.guards.filter fun g => !ids.contains g.job
      edges := l.edges.filter fun e => !ids.contains e.job && !ids.contains e.waitsOn }
  | _, _ => l

/-- A snapshot has the jobs that were written down, by age, and by insertion within one age; and it
has their rows in the order of insertion. -/
structure Shown (l : Ledger) (s : Snapshot) : Prop where
  ids : (s.jobs.map Job.id).Perm l.ids
  by_age : s.jobs.Pairwise fun a b => a.created.toInt ≤ b.created.toInt
  by_insertion : ∀ t, ((s.jobs.filter (·.created == t)).map Job.id).Sublist l.ids
  guards : s.guards = l.guards
  edges : s.edges = l.edges

/-- After each of the calls, what is loaded is what was written down. -/
inductive Confirms : Ledger → List StoreCall → List Answer → Prop
  | done (l : Ledger) : Confirms l [] []
  | call {l : Ledger} {c : StoreCall} {a : Answer} {s : Snapshot} {rest : List StoreCall}
    {later : List Answer} : a.loaded = .ok s → (l.follow c a.result).Shown s →
    Confirms (l.follow c a.result) rest later → Confirms l (c :: rest) (a :: later)

/-- Tables that hold what was written down. -/
structure Kept (l : Ledger) (t : Tables) : Prop where
  ids : t.jobs.map Job.id = l.ids
  guards : t.guards = l.guards
  edges : t.edges = l.edges

variable {l : Ledger} {t t' : Tables}

theorem Kept.shown (h : l.Kept t) : l.Shown t.snapshot where
  ids := h.ids ▸ (oldestFirst_perm t.jobs).map Job.id
  by_age := oldestFirst_pairwise t.jobs
  by_insertion age := by
    show ((oldestFirst t.jobs).filter _ |>.map Job.id).Sublist l.ids
    rw [oldestFirst_sameOrder t.jobs age, ← h.ids]
    exact List.filter_sublist.map Job.id
  guards := h.guards
  edges := h.edges

/-- Records may change, as long as they keep their ids. -/
theorem Kept.of_jobs (h : l.Kept t) {jobs : List Job} (hids : jobs.map Job.id = t.jobs.map Job.id) :
    l.Kept { t with jobs } := ⟨hids.trans h.ids, h.guards, h.edges⟩

theorem Kept.modify (h : l.Kept t) {id : JobId} {f : Job → Job} (hf : ∀ j, (f j).id = j.id)
    (ht : t.modify id f = .ok t') : l.Kept t' := by
  unfold Tables.modify at ht
  split at ht
  · obtain rfl := Except.ok.inj ht
    exact h.of_jobs (map_modifyFirst_of_keeps fun j _ => hf j)
  · cases ht

theorem Kept.amend : ∀ (jobs : List Job) {t : Tables}, l.Kept t → l.Kept (t.amend jobs)
  | [], _, h => h
  | j :: rest, t, h => by
    have hids : (t.replace j).jobs.map Job.id = t.jobs.map Job.id :=
      map_modifyFirst_of_keeps fun k hk => (beq_iff_eq.mp hk).symm
    exact Kept.amend rest (h.of_jobs hids)

theorem Kept.follow (h : l.Kept t) {c : StoreCall} (ht : c.run t = .ok t') :
    (l.follow c (.ok ())).Kept t' := by
  cases c with
  | insert batch =>
    replace ht : Tables.insert batch t = .ok t' := ht
    unfold Tables.insert at ht
    split at ht
    · cases ht
    · obtain rfl := Except.ok.inj ht
      refine ⟨?_, congrArg (· ++ _) h.guards, congrArg (· ++ _) h.edges⟩
      rw [Tables.append, List.map_append, h.ids, List.map_map]
      rfl
  | setRunning id running => exact h.modify (f := fun j => { j with running }) (fun _ => rfl) ht
  | reschedule id running attempt due payload =>
    exact h.modify (f := (·.rescheduled running attempt due payload)) (fun _ => rfl) ht
  | clearRunning =>
    obtain rfl := Except.ok.inj ht
    exact h.of_jobs (by rw [List.map_map]; rfl)
  | amend jobs =>
    obtain rfl := Except.ok.inj ht
    exact h.amend jobs
  | delete ids =>
    obtain rfl := Except.ok.inj ht
    refine ⟨?_, congrArg (List.filter _) h.guards, congrArg (List.filter _) h.edges⟩
    show (t.jobs.filter fun j => !ids.contains j.id).map Job.id
      = l.ids.filter fun id => !ids.contains id
    rw [← h.ids, List.filter_map]
    rfl

theorem Kept.confirms : ∀ (calls : List StoreCall) {l : Ledger} {t : Tables}, l.Kept t →
    l.Confirms calls (answers calls t)
  | [], l, _, _ => .done l
  | c :: rest, l, t, h => by
    have hnext : (l.follow c (c.answer t).result).Kept (c.after t) := by
      unfold StoreCall.answer StoreCall.after
      cases ht : c.run t with
      | ok t' => exact h.follow ht
      | error e => cases c <;> exact h
    exact .call rfl hnext.shown (Kept.confirms rest hnext)

end Ledger

end Backlog
