/-
# When a change is turned down

A change of an index is carried out or turned down, and there are few reasons to turn one down.
They are looked for in a fixed order: first in the roster (a batch that closes a circle, an id that
is not known), then at the switch, and then in the tables (an id that is taken).  Nothing is
assigned before the last of them has been ruled out.

* `WaitsWith`, `Tangled`: what it means that a batch closes a circle, and `cycle?_eq_some_iff` that
  this is what the sweep finds;
* `FirstTaken`: the id that is reported when a batch brings one that is taken;
* `InsertAnswers`, `RecordAnswers`, `PlainAnswers`: **exactly when a change of each kind is turned
  down, and for which reason**;
* `changes_all_or_nothing`: that these hold after every run, and that a change that is turned down
  leaves memory and store as they were.
-/
import Backlog.Proofs.Graph.Acyclic
import Backlog.Proofs.InPlace
import Mathlib

namespace Backlog

open Relation

/-! ## 1. Batches that close a circle -/

/-- A stored job or one of the batch waits on another one of them, by a stored row or by one of the
batch. -/
def WaitsWith (jobs : List Job) (edges : List Edge) (batch : List Submission) (a b : JobId) :
    Prop :=
  Edge.mk a b ∈ edges ++ batch.flatMap Submission.edges ∧
    (Held jobs a ∨ a ∈ batch.map Submission.id) ∧ (Held jobs b ∨ b ∈ batch.map Submission.id)

/-- With the batch, some job waits on itself, directly or through others. -/
def Tangled (jobs : List Job) (edges : List Edge) (batch : List Submission) : Prop :=
  ∃ id, TransGen (WaitsWith jobs edges batch) id id

/-- The edges of the graph that is swept. -/
theorem Roster.waitGraph_edge_eq (r : Roster) (batch : List Submission) :
    (fun a b => (a, b) ∈ (r.waitGraph batch).edges) = WaitsWith r.jobs r.edges.all batch := by
  funext a b
  exact propext (mem_waitGraph_edges.trans (by rw [mem_idsWith, mem_idsWith, WaitsWith]))

theorem Roster.cycle?_eq_some_iff {r : Roster} {batch : List Submission} :
    (∃ id, r.cycle? batch = some id) ↔ Tangled r.jobs r.edges.all batch := by
  rw [← Option.ne_none_iff_exists', Ne, cycle?_eq_none_iff]
  simp only [WaitGraph.Acyclic, WaitGraph.OnCycle, WaitGraph.path_iff_transGen,
    waitGraph_edge_eq, not_forall, not_not, Tangled]

theorem Roster.cycle?_eq_none_iff_not_tangled {r : Roster} {batch : List Submission} :
    r.cycle? batch = none ↔ ¬Tangled r.jobs r.edges.all batch := by
  rw [← cycle?_eq_some_iff, ← Option.ne_none_iff_exists', ne_eq, not_not]

/-- If the roster and the tables agree, it does not matter whose jobs and rows are looked at. -/
theorem InStep.tangled_iff {r : Roster} {t : Tables} (h : InStep r t) {batch : List Submission} :
    Tangled r.jobs r.edges.all batch ↔ Tangled t.jobs t.edges batch := by
  have hedges : ∀ e, e ∈ r.edges.all ↔ e ∈ t.edges := by
    intro e
    rw [Filed.mem_all]
    constructor
    · rintro ⟨id, he⟩
      rw [h.same_edges] at he
      exact List.mem_of_mem_filter he
    · intro he
      exact ⟨e.job, h.same_edges e.job ▸ List.mem_filter.mpr ⟨he, by simp⟩⟩
  have hrel : WaitsWith r.jobs r.edges.all batch = WaitsWith t.jobs t.edges batch := by
    funext a b
    simp only [WaitsWith, List.mem_append, hedges, h.matched.held_iff]
  rw [Tangled, Tangled, hrel]

/-! ## 2. Batches with an id that is taken -/

/-- The batch brings no id twice, and none that is taken. -/
def NoneTaken (taken : List JobId) (batch : List Submission) : Prop :=
  (batch.map Submission.id).Nodup ∧ ∀ s ∈ batch, s.id ∉ taken

instance (taken : List JobId) (batch : List Submission) : Decidable (NoneTaken taken batch) :=
  inferInstanceAs (Decidable (_ ∧ _))

/-- `id` is taken or comes earlier in the batch, and it is the first id of the batch of which that
can be said. -/
def FirstTaken (taken : List JobId) (batch : List Submission) (id : JobId) : Prop :=
  ∃ before s after, batch = before ++ s :: after ∧ s.id = id ∧
    (id ∈ taken ∨ id ∈ before.map Submission.id) ∧ NoneTaken taken before

theorem noneTaken_iff {taken : List JobId} {batch : List Submission} :
    NoneTaken taken batch ↔ firstDuplicate taken batch = none :=
  firstDuplicate_eq_none_iff.symm

theorem firstDuplicate_eq_some_iff {id : JobId} : ∀ {batch : List Submission} {taken : List JobId},
    firstDuplicate taken batch = some id ↔ FirstTaken taken batch id
  | [], taken => by simp [firstDuplicate, FirstTaken]
  | s :: rest, taken => by
    simp only [FirstTaken, noneTaken_iff]
    by_cases hs : s.id ∈ taken
    · rw [firstDuplicate, if_pos hs, Option.some.injEq]
      constructor
      · rintro rfl
        exact ⟨[], s, rest, rfl, rfl, .inl hs, rfl⟩
      · rintro ⟨_ | ⟨u, before⟩, v, after, hsplit, hid, -, hfree⟩
        · obtain ⟨rfl, rfl⟩ := List.cons.inj hsplit
          exact hid
        · obtain ⟨rfl, rfl⟩ := List.cons.inj hsplit
          simp [firstDuplicate, hs] at hfree
    · -- whoever comes after `s` finds its id among those taken
      have hmove : ∀ before : List Submission, id ∈ s.id :: taken ∨ id ∈ before.map Submission.id ↔
          id ∈ taken ∨ id ∈ (s :: before).map Submission.id := by
        intro before
        rw [List.map_cons, List.mem_cons, List.mem_cons]
        tauto
      have hskip : ∀ before, firstDuplicate taken (s :: before)
          = firstDuplicate (s.id :: taken) before := fun before => by rw [firstDuplicate, if_neg hs]
      rw [hskip, firstDuplicate_eq_some_iff]
      simp only [FirstTaken, noneTaken_iff]
      constructor
      · rintro ⟨before, u, after, rfl, hid, htaken, hfree⟩
        exact ⟨s :: before, u, after, rfl, hid, (hmove before).mp htaken,
          (hskip before).trans hfree⟩
      · rintro ⟨_ | ⟨v, before⟩, u, after, hsplit, hid, htaken, hfree⟩
        · obtain ⟨rfl, rfl⟩ := List.cons.inj hsplit
          exact absurd (hid ▸ htaken.resolve_right (by simp)) hs
        · obtain ⟨rfl, rfl⟩ := List.cons.inj hsplit
          exact ⟨before, u, after, rfl, hid, (hmove before).mpr htaken,
            (hskip before).symm.trans hfree⟩

/-! ## 3. Why a change is turned down -/

/-- The answers to a batch.  A circle is found before anything is written, and a switch that is off
before any id is looked at. -/
structure InsertAnswers (x : MemoryIndex) (batch : List Submission)
    (answer : Except IndexError MemoryIndex) : Prop where
  cycle : (∃ id, answer = .error (.cycle id)) ↔ Tangled x.roster.jobs x.roster.edges.all batch
  refused : ¬Tangled x.roster.jobs x.roster.edges.all batch →
    (answer = .error (.store (.refused .insert)) ↔ x.store.refusing = true)
  duplicate : ¬Tangled x.roster.jobs x.roster.edges.all batch → x.store.refusing = false →
    ∀ id, answer = .error (.store (.duplicate id)) ↔
      FirstTaken (x.store.inner.jobs.map Job.id) batch id
  ok : (∃ y, answer = .ok y) ↔ ¬Tangled x.roster.jobs x.roster.edges.all batch ∧
    x.store.refusing = false ∧ NoneTaken (x.store.inner.jobs.map Job.id) batch

/-- The answers to a change of one record.  The roster is asked for the id before the switch. -/
structure RecordAnswers (x : MemoryIndex) (id : JobId) (write : WriteCall)
    (answer : Except IndexError MemoryIndex) : Prop where
  notFound : answer = .error (.notFound id) ↔ ¬Held x.roster.jobs id
  refused : Held x.roster.jobs id →
    (answer = .error (.store (.refused write)) ↔ x.store.refusing = true)
  ok : (∃ y, answer = .ok y) ↔ Held x.roster.jobs id ∧ x.store.refusing = false

/-- The answers to a change that only the switch can stop. -/
structure PlainAnswers (x : MemoryIndex) (write : WriteCall)
    (answer : Except IndexError MemoryIndex) : Prop where
  refused : answer = .error (.store (.refused write)) ↔ x.store.refusing = true
  ok : (∃ y, answer = .ok y) ↔ x.store.refusing = false

namespace Index

variable {x : MemoryIndex}

theorem writeThrough_of_refusing (h : x.store.refusing = true) (write : WriteCall)
    (act : Tables → Except StoreError Tables) (follow : Roster → Roster) :
    x.writeThrough (fun s => s.guarded write act) follow = .error (.store (.refused write)) := by
  simp only [Index.writeThrough, Switched.guarded_of_refusing h]

theorem writeThrough_of_not_refusing (h : x.store.refusing = false) (write : WriteCall)
    (act : Tables → Except StoreError Tables) (follow : Roster → Roster) :
    x.writeThrough (fun s => s.guarded write act) follow =
      match act x.store.inner with
      | .ok t => .ok (x.holding t (follow x.roster))
      | .error e => .error (.store e) := by
  simp only [Index.writeThrough, Switched.guarded_of_not_refusing h]
  cases act x.store.inner with
  | ok t => rfl
  | error e => rfl

theorem insert_answers (batch : List Submission) : InsertAnswers x batch (x.insert batch) := by
  have hc : (∃ id, x.roster.cycle? batch = some id) ↔
      Tangled x.roster.jobs x.roster.edges.all batch := Roster.cycle?_eq_some_iff
  unfold Index.insert
  cases hcycle : x.roster.cycle? batch with
  | some id =>
    have htangled := hc.mp ⟨id, hcycle⟩
    exact ⟨by simp [htangled], by simp [htangled], by simp [htangled], by simp [htangled]⟩
  | none =>
    have hnot : ¬Tangled x.roster.jobs x.roster.edges.all batch :=
      Roster.cycle?_eq_none_iff_not_tangled.mp hcycle
    show InsertAnswers x batch
      (x.writeThrough (fun s => s.guarded .insert (Tables.insert batch)) (·.insert batch))
    cases hr : x.store.refusing with
    | true =>
      rw [writeThrough_of_refusing hr]
      exact ⟨by simp [hnot], by simp [hr], by simp [hr], by simp [hr]⟩
    | false =>
      rw [writeThrough_of_not_refusing hr]
      have htaken : ∀ id, firstDuplicate (x.store.inner.jobs.map Job.id) batch = some id ↔
          FirstTaken (x.store.inner.jobs.map Job.id) batch id :=
        fun _ => firstDuplicate_eq_some_iff
      have hnone : NoneTaken (x.store.inner.jobs.map Job.id) batch ↔
          firstDuplicate (x.store.inner.jobs.map Job.id) batch = none := noneTaken_iff
      unfold Tables.insert
      cases hd : firstDuplicate (x.store.inner.jobs.map Job.id) batch with
      | some id =>
        simp only [hd, Option.some.injEq, reduceCtorEq, iff_false] at htaken hnone
        exact ⟨by simp [hnot], by simp [hr], by simp [htaken], by simp [hnone]⟩
      | none =>
        simp only [hd, reduceCtorEq, false_iff, iff_true] at htaken hnone
        exact ⟨by simp [hnot], by simp [hr], by simp [htaken], by simp [hnot, hr, hnone]⟩

/-- A change of one record, whatever it is. -/
theorem record_answers (h : Matched x.roster x.store.inner) (id : JobId) (write : WriteCall)
    (f : Job → Job) (follow : Job → Roster → Roster) :
    RecordAnswers x id write
      (match x.roster.get? id with
      | none => .error (.notFound id)
      | some j => x.writeThrough (fun s => s.guarded write fun t => t.modify id f) (follow j)) := by
  have hknown : x.roster.contains id = true ↔ Held x.roster.jobs id := Roster.contains_iff
  rw [Roster.contains] at hknown
  cases hget : x.roster.get? id with
  | none =>
    have hnot : ¬Held x.roster.jobs id := fun hheld => by simp [hget] at hknown; exact hknown hheld
    exact ⟨by simp [hnot], by simp [hnot], by simp [hnot]⟩
  | some j =>
    have hheld : Held x.roster.jobs id := hknown.mp (by simp [hget])
    cases hr : x.store.refusing with
    | true =>
      simp only [writeThrough_of_refusing hr]
      exact ⟨by simp [hheld], by simp [hr], by simp [hr]⟩
    | false =>
      have hstored : x.store.inner.contains id = true := (h.contains hheld).2
      simp only [writeThrough_of_not_refusing hr, Tables.modify, hstored, if_true]
      exact ⟨by simp [hheld], by simp [hr], by simp [hheld, hr]⟩

theorem plain_answers (write : WriteCall) (g : Tables → Tables) (follow : Roster → Roster) :
    PlainAnswers x write
      (x.writeThrough (fun s => s.guarded write fun t => .ok (g t)) follow) := by
  cases hr : x.store.refusing with
  | true =>
    rw [writeThrough_of_refusing hr]
    exact ⟨by simp [hr], by simp [hr]⟩
  | false =>
    rw [writeThrough_of_not_refusing hr]
    exact ⟨by simp [hr], by simp [hr]⟩

end Index

/-! ## 4. Every run -/

/-- **A change is turned down exactly when it should be, and then changes nothing.**  After every
run, whatever the batches: a change in place that breaks off has left memory and store as they were,
it ends as its operation says, and the operation answers as it should.  Rows of a batch may be filed
under a job to which they do not belong, and it is the roster that is searched for circles; if no
batch did that, the tables give the same answer. -/
theorem changes_all_or_nothing (d : Discipline) (changes : List Change) :
    let x := (Index.fresh d).run changes
    (∀ c e y, (Edit.change c).run x = .error e y → y = x) ∧
    (∀ c, (Edit.change c).run x = Edit.outcome x (x.perform c)) ∧
    (∀ batch, InsertAnswers x batch (x.insert batch)) ∧
    (∀ id running, RecordAnswers x id .setRunning (x.setRunning id running)) ∧
    (∀ id running attempt due payload,
      RecordAnswers x id .reschedule (x.reschedule id running attempt due payload)) ∧
    PlainAnswers x .clearRunning x.clearRunning ∧
    (∀ jobs, PlainAnswers x .amend (x.amend jobs)) ∧
    (∀ ids, PlainAnswers x .delete (x.delete ids)) ∧
    ((∀ c ∈ changes, c.WellFormed) → ∀ batch,
      Tangled x.roster.jobs x.roster.edges.all batch ↔
        Tangled x.store.inner.jobs x.store.inner.edges batch) := by
  intro x
  have hm : Matched x.roster x.store.inner := matched_run d changes
  refine ⟨fun c e y h => (Edit.change_makes c).eq_of_error h, fun c => Edit.change_makes c x,
    Index.insert_answers, fun id running => ?_, fun id running attempt due payload => ?_, ?_,
    fun jobs => ?_, fun ids => ?_, fun hw batch => (reachable_run d hw).inStep.tangled_iff⟩
  · exact Index.record_answers hm id .setRunning _ fun j r => r.replace { j with running }
  · exact Index.record_answers hm id .reschedule _
      fun j r => r.replace (j.rescheduled running attempt due payload)
  · exact Index.plain_answers .clearRunning Tables.clearRunning _
  · exact Index.plain_answers (x := x) .amend (Tables.amend _)
      fun r => (jobs.filter fun j => x.roster.contains j.id).foldl Roster.replace r
  · exact Index.plain_answers .delete (Tables.delete ids) _

/-- A stored job, and a batch that brings it once more behind a new one. -/
def storedJob : Job := { id := ⟨"stored"⟩, factory := "http", created := 1 }

def repeatingBatch : List Submission :=
  [{ job := { storedJob with id := ⟨"new"⟩ } }, { job := storedJob },
    { job := { storedJob with id := ⟨"new"⟩ } }]

/-- The stored id is reported, and not the one that the batch brings twice. -/
theorem insert_repeatingBatch :
    let x := (Index.fresh .runToCompletion).run [.insert [{ job := storedJob }]]
    ¬Tangled x.roster.jobs x.roster.edges.all repeatingBatch ∧ x.store.refusing = false ∧
      x.insert repeatingBatch = .error (.store (.duplicate storedJob.id)) := by
  intro x
  have hall := changes_all_or_nothing .runToCompletion [.insert [{ job := storedJob }]]
  have hinsert : InsertAnswers x repeatingBatch (x.insert repeatingBatch) :=
    hall.2.2.1 repeatingBatch
  have hfree : ¬Tangled x.roster.jobs x.roster.edges.all repeatingBatch := by
    rw [← Roster.cycle?_eq_some_iff]
    have hnone : x.roster.cycle? repeatingBatch = none := by cbv
    simp [hnone]
  have hon : x.store.refusing = false := by cbv
  have hids : x.store.inner.jobs.map Job.id = [storedJob.id] := by cbv
  refine ⟨hfree, hon, (hinsert.duplicate hfree hon _).mpr ?_⟩
  rw [hids]
  exact ⟨[{ job := { storedJob with id := ⟨"new"⟩ } }], { job := storedJob }, _, rfl, rfl,
    .inl (by decide), by decide⟩

end Backlog
