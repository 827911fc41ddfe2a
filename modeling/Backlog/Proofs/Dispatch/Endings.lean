/-
# What the end of an attempt means to all jobs

Recording the end of an attempt may drop many jobs at once, if the job of the attempt is given up
and failures cascade.  This module says what it does to any job, be it the one that was attempted,
one that falls with it, or one that has nothing to do with either.

* `endingsIn`: how often it is announced that a job is gone for good;
* `Runner.Concluded.endings`: that is announced once at most of each job, and then the job is not
  stored any more;
* `Runner.Concluded.gone_iff`: **whoever else is stored is dropped exactly if the job is given up
  and there is a way to it along stored rows**;
* `Runner.Concluded.told`: whose failure hooks are called;
* `Runner.Settled.mem_iff`: whoever else stays has the record that it had.
-/
import Backlog.Proofs.Cascade
import Backlog.Proofs.Dispatch.Steps
import Backlog.Proofs.Queue.Waiting

namespace Backlog

open Relation

variable {σ : Type} [Storage σ] [Tabular σ]

/-! ## 1. Who is announced, dropped and told -/

/-- How often it is announced among `events` that `id` is gone for good. -/
def endingsIn (events : List Event) (id : JobId) : Nat :=
  events.countP fun e => e.isTerminal && e.job == id

theorem endingsIn_append (events more : List Event) (id : JobId) :
    endingsIn (events ++ more) id = endingsIn events id + endingsIn more id :=
  List.countP_append

/-- Whether the job was given up. -/
def Verdict.gaveUp : Verdict → Bool
  | done outcome => outcome.isFailure
  | refused _ => false
  | panicked => true

theorem Outcome.isTerminal_of_isFailure {outcome : Outcome} (h : outcome.isFailure = true) :
    outcome.isTerminal = true := by
  cases outcome with
  | success | retry => simp [Outcome.isFailure] at h
  | failure | fatalFailure => rfl

theorem Verdict.gaveUp_of_downfall {v : Verdict} {outcome : Outcome}
    {P : Prop} (hout : outcome.isFailure = true) (hv : v = .done outcome ∧ P ∨ v = .panicked) :
    v.gaveUp = true := by
  rcases hv with ⟨rfl, -⟩ | rfl
  · exact hout
  · rfl

/-- Another record of a job that is stored under the same queue key. -/
theorem Recorded.unencumbered {x y : Index σ} {again j : Job} (h : Recorded x y again)
    (hj : j ∈ x.stored.jobs) (hid : again.id = j.id) (hqueue : again.queue = j.queue)
    (hfree : x.stored.Unencumbered) : y.stored.Unencumbered := by
  rw [(Index.eq_of_onTables h.index).2]
  refine hfree.mono (fun _ he => he) fun m hm hq => ?_
  obtain ⟨k, hk, rfl⟩ := List.mem_map.mp hm
  by_cases hk' : k.id = again.id
  · rw [if_pos hk'] at hq ⊢
    refine ⟨j, hj, hid.symm, ?_⟩
    rwa [Job.isMigration, ← hqueue]
  · rw [if_neg hk'] at hq ⊢
    exact ⟨k, hk, rfl, hq⟩

namespace Runner

variable {r : Runner} {m : Moment} {j : Job} {x : Index σ} {d d' : Desk σ}
  {ran : Option Behaviour} {v : Verdict} {id : JobId}

theorem mem_fallen_iff (hs : InStep x.roster x.stored) {k : Job} :
    k ∈ r.fallen x j ↔
      r.cascade = true ∧ k ∈ x.roster.jobs ∧ k.id ≠ j.id ∧ TransGen x.stored.Names k.id j.id := by
  unfold fallen
  split
  · rename_i hr
    rw [mem_casualties_iff hs.roster_unique, hs.names_eq]
    simp [hr]
  · rename_i hr
    simp [hr]

theorem nodup_fallen (hs : InStep x.roster x.stored) :
    (j.id :: (r.fallen x j).map Job.id).Nodup := by
  refine List.nodup_cons.mpr ⟨fun hj => ?_, ?_⟩
  · obtain ⟨k, hk, hid⟩ := List.mem_map.mp hj
    exact ((mem_fallen_iff hs).mp hk).2.2.1 hid
  · unfold fallen
    split
    · exact nodup_casualties x j.id
    · exact List.nodup_nil

/-- Of the announcements about a job that is given up and those that fall with it, each job has
one. -/
theorem endingsIn_fallen (failed : JobId) (fatal : Bool) (reason : String) (fallen : List Job)
    (id : JobId) :
    endingsIn (.failed failed fatal reason :: fallen.map fun k => .cancelled k.id failed) id
      = (failed :: fallen.map Job.id).count id := by
  simp [endingsIn, List.count, List.countP_cons, List.countP_map, Function.comp_def,
    Event.isTerminal, Event.job]

namespace Concluded

/-- At most one more announcement says that a job is gone for good.  It is about the job of the
attempt or about one that was stored, and that one is not stored any more. -/
theorem endings (h : Concluded r m j d ran v d') (hs : InStep d.index.roster d.index.stored)
    (id : JobId) :
    endingsIn d'.events id = endingsIn d.events id ∨
      endingsIn d'.events id = endingsIn d.events id + 1 ∧
        (id = j.id ∨ Held d.index.roster.jobs id) ∧ ¬Held d'.index.roster.jobs id := by
  cases h with
  | refused => exact .inl rfl
  | @succeeded b index hdel =>
    have hadded := endingsIn_append d.events [.succeeded j.id] id
    by_cases hid : id = j.id
    · have hone : endingsIn [.succeeded j.id] id = 1 := by
        simp [endingsIn, Event.isTerminal, Event.job, hid]
      have hgone := ((Index.delete_dropped hdel).gone j.id (List.mem_singleton_self _)).1
      exact .inr ⟨hadded.trans (by rw [hone]), .inl hid, hid ▸ hgone⟩
    · have hnone : endingsIn [.succeeded j.id] id = 0 := by
        simp [endingsIn, Event.job, Ne.symm hid]
      exact .inl (hadded.trans (by rw [hnone]; rfl))
  | retried _ _ _ => exact .inl (endingsIn_append d.events _ id)
  | @fell _ live fatal reason outcome _ _ _ _ hdown =>
    cases hdown with
    | refused _ => exact .inl rfl
    | @dropped _ index announced heard hdel _ hannounced _ =>
      have hadded := endingsIn_append d.events announced id
      have hle : endingsIn announced id ≤ (j.id :: (r.fallen d.index j).map Job.id).count id := by
        rw [← endingsIn_fallen j.id fatal reason]
        exact hannounced.sublist.countP_le
      have hone : (j.id :: (r.fallen d.index j).map Job.id).count id ≤ 1 :=
        List.nodup_iff_count_le_one.mp (nodup_fallen hs) id
      by_cases hnone : endingsIn announced id = 0
      · exact .inl (hadded.trans (by rw [hnone]; rfl))
      · have hmem : id ∈ j.id :: (r.fallen d.index j).map Job.id :=
          List.count_pos_iff.mp (by omega)
        have hgone := ((Index.delete_dropped hdel).gone id hmem).1
        refine .inr ⟨hadded.trans (by omega), ?_, hgone⟩
        refine (List.mem_cons.mp hmem).imp_right fun hfell => ?_
        obtain ⟨k, hk, rfl⟩ := List.mem_map.mp hfell
        exact List.mem_map.mpr ⟨k, ((mem_fallen_iff hs).mp hk).2.1, rfl⟩

/-- Unless a hook breaks off, it is announced that the job of an attempt that is over is gone for
good, and so is whoever falls with it. -/
theorem endings_of_done {outcome : Outcome} (h : Concluded r m j d ran (.done outcome) d')
    (hs : InStep d.index.roster d.index.stored) (hover : outcome.isTerminal = true)
    (hid : id = j.id ∨ outcome.isFailure = true ∧ id ∈ (r.fallen d.index j).map Job.id) :
    endingsIn d'.events id = endingsIn d.events id + 1 := by
  cases h with
  | succeeded _ =>
    have hid : id = j.id := hid.resolve_right fun hfell => by simp [Outcome.isFailure] at hfell
    refine (endingsIn_append d.events [.succeeded j.id] id).trans ?_
    simp [endingsIn, Event.isTerminal, Event.job, hid]
  | retried _ _ _ => simp [Outcome.isTerminal] at hover
  | fell _ _ hdown =>
    cases hdown with
    | dropped _ hv _ _ =>
      obtain ⟨-, rfl, -⟩ := hv.resolve_right (by simp)
      have hmem : id ∈ j.id :: (r.fallen d.index j).map Job.id :=
        List.mem_cons.mpr (hid.imp_right And.right)
      refine (endingsIn_append d.events _ id).trans ?_
      rw [endingsIn_fallen, List.count_eq_one_of_mem (nodup_fallen hs) hmem]

/-- Whoever else was there is dropped exactly if the job is given up and it leads to that job. -/
theorem gone_iff (h : Concluded r m j d ran v d') (hr : r.cascade = true)
    (hs : InStep d.index.roster d.index.stored)
    (hj : Held d.index.roster.jobs j.id → j ∈ d.index.roster.jobs)
    (hid : id ≠ j.id) (hheld : Held d.index.roster.jobs id) :
    ¬Held d'.index.roster.jobs id ↔ v.gaveUp = true ∧ TransGen d.index.stored.Names id j.id := by
  cases h with
  | refused => simp [Verdict.gaveUp, hheld]
  | succeeded hdel =>
    have hkept := (Index.delete_dropped hdel).held_iff.mpr ⟨hheld, by simpa using hid⟩
    simpa [Verdict.gaveUp, Outcome.isFailure, Desk.emit] using hkept
  | retried _ _ hres =>
    have hrec := Index.reschedule_recorded hs.matched (hj (Index.held_of_reschedule hres)) hres
    simpa [Verdict.gaveUp, Outcome.isFailure, Desk.emit] using hrec.held_iff.mpr hheld
  | fell _ hout hdown =>
    cases hdown with
    | refused _ => simp [Verdict.gaveUp, hheld]
    | dropped hdel hv _ _ =>
      have hgave := Verdict.gaveUp_of_downfall hout hv
      have hdropped : Held _ id ↔ _ := (Index.delete_dropped hdel).held_iff
      simp only [hdropped, hheld, true_and, not_not, List.mem_cons, hid, false_or, hgave]
      constructor
      · intro hfell
        obtain ⟨k, hk, rfl⟩ := List.mem_map.mp hfell
        exact ((mem_fallen_iff hs).mp hk).2.2.2
      · intro hpath
        obtain ⟨k, hk, rfl⟩ := List.mem_map.mp hheld
        exact List.mem_map.mpr ⟨k, (mem_fallen_iff hs).mpr ⟨hr, hk, hid, hpath⟩, rfl⟩

omit [Tabular σ] in
/-- Which failure hooks are called: that of the job at most, and those of jobs that fall, all of
them unless a hook breaks off. -/
theorem told (h : Concluded r m j d ran v d') :
    ∃ (own : Option Hooks) (heard : List Job),
      own ∈ [none, r.freshHooks j, ran.map Behaviour.spent] ∧
      d'.notes = d.notes ++ hookNotes own ++ heard.flatMap (fun k => hookNotes (r.freshHooks k)) ∧
      (∀ k ∈ heard, v.gaveUp = true ∧ k ∈ r.fallen d.index j) ∧
      ∀ outcome, v = .done outcome → outcome.isFailure = true → heard = r.fallen d.index j := by
  have hnobody : ∀ e : Desk σ, e.notes = d.notes → v.gaveUp = false →
      ∃ (own : Option Hooks) (heard : List Job),
      own ∈ [none, r.freshHooks j, ran.map Behaviour.spent] ∧
      e.notes = d.notes ++ hookNotes own ++ heard.flatMap (fun k => hookNotes (r.freshHooks k)) ∧
      (∀ k ∈ heard, v.gaveUp = true ∧ k ∈ r.fallen d.index j) ∧
      ∀ outcome, v = .done outcome → outcome.isFailure = true → heard = r.fallen d.index j := by
    intro e he hkept
    refine ⟨none, [], List.mem_cons_self, by simp [he, hookNotes], by simp, ?_⟩
    rintro outcome rfl hout
    exact absurd (hkept.symm.trans hout) (by simp)
  cases h with
  | refused => exact hnobody d rfl rfl
  | succeeded _ | retried _ _ _ => exact hnobody _ rfl rfl
  | @fell _ live fatal reason outcome _ _ hlive hout hdown =>
    cases hdown with
    | refused _ => exact hnobody d rfl rfl
    | @dropped _ index announced heard _ hv _ hheard =>
      refine ⟨live.or (r.freshHooks j), heard, ?_, rfl, fun k hk => ⟨?_, hheard.subset hk⟩, ?_⟩
      · rcases hlive with rfl | rfl
        · simp
        · cases ran <;> simp
      · exact Verdict.gaveUp_of_downfall hout hv
      · rintro outcome' rfl -
        exact (hv.resolve_right (by simp)).2.2

/-- No job is moved into the migration queue, and no row is added. -/
theorem unencumbered (h : Concluded r m j d ran v d') (hs : InStep d.index.roster d.index.stored)
    (hj : Held d.index.roster.jobs j.id → j ∈ d.index.roster.jobs)
    (hfree : d.index.stored.Unencumbered) : d'.index.stored.Unencumbered := by
  have hdeleted : ∀ {ids : List JobId} {index : Index σ}, d.index.delete ids = .ok index →
      index.stored.Unencumbered := fun hdel => by
    rw [(Index.eq_of_onTables (Index.delete_dropped hdel).index).2]
    exact hfree.mono (fun _ he => List.mem_of_mem_filter he)
      fun k hk hq => ⟨k, List.mem_of_mem_filter hk, rfl, hq⟩
  cases h with
  | refused => exact hfree
  | succeeded hdel => exact hdeleted hdel
  | retried _ _ hres =>
    have hmem := hj (Index.held_of_reschedule hres)
    exact (Index.reschedule_recorded hs.matched hmem hres).unencumbered (hs.mem_iff.mp hmem) rfl
      rfl hfree
  | fell _ _ hdown =>
    cases hdown with
    | refused _ => exact hfree
    | dropped hdel _ _ _ => exact hdeleted hdel

end Concluded

/-! ## 2. Who is left -/

namespace Settled

variable {y : Index σ}

theorem inStep (h : Settled r j x y) (hs : InStep x.roster x.stored) :
    InStep y.roster y.stored := by
  cases h with
  | untouched => exact hs
  | dropped _ hdrop => exact hdrop.inStep hs
  | again hrec _ => exact hrec.inStep hs

theorem held (h : Settled r j x y) (hheld : Held y.roster.jobs id) : Held x.roster.jobs id := by
  cases h with
  | untouched => exact hheld
  | dropped _ hdrop => exact (hdrop.held_iff.mp hheld).1
  | again hrec _ => exact hrec.held_iff.mp hheld

/-- Whoever else is still there has the record that it had. -/
theorem mem_iff (h : Settled r j x y) {k : Job} (hid : k.id ≠ j.id)
    (hheld : Held y.roster.jobs k.id) : k ∈ y.roster.jobs ↔ k ∈ x.roster.jobs := by
  cases h with
  | untouched => rfl
  | dropped _ hdrop =>
    rw [hdrop.mem_iff]
    exact and_iff_left (hdrop.held_iff.mp hheld).2
  | again hrec hsame =>
    rw [hrec.mem_iff, and_iff_left (hsame ▸ hid)]
    exact or_iff_right fun heq => hid (heq ▸ hsame)

theorem edges_subset (h : Settled r j x y) {e : Edge} (he : e ∈ y.stored.edges) :
    e ∈ x.stored.edges := by
  cases h with
  | untouched => exact he
  | dropped _ hdrop =>
    rw [(Index.eq_of_onTables hdrop.index).2] at he
    exact List.mem_of_mem_filter he
  | again hrec _ =>
    rw [(Index.eq_of_onTables hrec.index).2] at he
    exact he

end Settled

end Runner

end Backlog
