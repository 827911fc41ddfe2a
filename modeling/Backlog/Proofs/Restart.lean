/-
# What a restart does to the jobs that may be handed out

A restart reads the jobs from the store, oldest first.  Memory held the same jobs with the same
rows, but maybe in another order, and where several jobs are of one age the order decides: who
heads a queue, and who is handed out before whom.

* `Roster.eligible_eq_filter`: what may be handed out at some time is what may be handed out in the
  end, less what is not due yet, so it is enough to look at the end of time;
* `Reordered`: two jobs of one age stand one way before the restart and the other way after it, and
  both could be handed out, or they head the same queue and one of them could;
* `Roster.eligible_eq_iff`: **a restart changes what may be handed out exactly if jobs are
  reordered**;
* `AgesKept`: once the store has been read, no amendment moves a creation time.  In such runs roster
  and tables agree on the order of jobs of one age (`AgesKept.sameOrder`), so a restart changes
  nothing (`eligible_after_restart`);
* `tied_restart`: without that, a restart does change who heads a queue.
-/
import Backlog.Proofs.Mirror
import Backlog.Proofs.Order
import Mathlib

namespace Backlog

/-! ## 1. The end of time -/

/-- By then every job is due. -/
def endOfTime : Int64 := Int64.maxValue

theorem Job.isDue_endOfTime (j : Job) : j.isDue endOfTime = true := by
  rw [Job.isDue_iff]
  exact Int64.toInt_le j.due

namespace Roster

/-- What may be handed out at a time: what may be handed out in the end, less what is not due. -/
theorem eligible_eq_filter (r : Roster) (now : Int64) (d : Discipline) :
    r.eligible now d = (r.eligible endOfTime d).filter (·.isDue now) := by
  unfold eligible
  cases r.migrationHead? with
  | some head =>
    simp only [Job.isDue_endOfTime, Bool.and_true]
    cases hrun : head.running with
    | true => simp
    | false => cases hdue : head.isDue now <;> simp [hdue]
  | none =>
    simp only [Job.isDue_endOfTime, Bool.and_true, filter_oldestFirst, List.filter_filter]
    simp only [Bool.and_comm]

end Roster

/-! ## 2. Who may be handed out, whatever the discipline -/

/-- How the head of a queue is found: in the migration queue, running heads always keep their
place. -/
def Discipline.within (d : Discipline) (q : String) : Discipline :=
  if q = migrationQueue then .runToCompletion else d

namespace Roster

variable {r : Roster} {d : Discipline}

/-- In the end, whatever is stored, rests and is free may be handed out, if it heads its queue. -/
theorem mem_eligible_endOfTime (hu : (r.jobs.map Job.id).Nodup) {j : Job} :
    j ∈ r.eligible endOfTime d ↔
      j ∈ r.jobs ∧ j.running = false ∧ r.Free j ∧
        ∀ q, j.queue = some q → (d.within q).head? q r.jobs = some j := by
  rw [mem_eligible_iff]
  constructor
  · rintro ⟨hj, hrun, -, hm | ⟨hm, hhead, hblocked⟩⟩
    · have hm' := hm
      rw [migrationHead?_eq] at hm'
      have hjq := (mem_of_head? hm').2.1
      refine ⟨hj, hrun, .inl hjq, fun q hq => ?_⟩
      obtain rfl : migrationQueue = q := Option.some.inj (hjq.symm.trans hq)
      rwa [Discipline.within, if_pos rfl]
    · have hnone := migrationHead?_eq_none_iff.mp hm
      refine ⟨hj, hrun, .inr ⟨hnone, hblocked⟩, fun q hq => ?_⟩
      have hne : q ≠ migrationQueue := fun h => hnone j hj (h ▸ hq)
      obtain ⟨head, hh, hid⟩ := isHead_iff.mp hhead q hq
      rw [Discipline.within, if_neg hne, hh,
        List.inj_on_of_nodup_map hu (mem_of_head? hh).1 hj hid]
  · rintro ⟨hj, hrun, hfree, hhead⟩
    refine ⟨hj, hrun, j.isDue_endOfTime, ?_⟩
    rcases hfree with hq | ⟨hnone, hblocked⟩
    · have hm := hhead _ hq
      rw [Discipline.within, if_pos rfl] at hm
      exact .inl (migrationHead?_eq.trans hm)
    · refine .inr ⟨migrationHead?_eq_none_iff.mpr hnone, isHead_iff.mpr fun q hq => ?_, hblocked⟩
      have hne : q ≠ migrationQueue := fun h => hnone j hj (h ▸ hq)
      have hh := hhead q hq
      rw [Discipline.within, if_neg hne] at hh
      exact ⟨j, hh, rfl⟩

end Roster

/-! ## 3. The same jobs in another order -/

/-- Of two arrangements of the same jobs, each has a head if the other one has.  If the heads are
not the same job, they are of one age and have changed places. -/
theorem Discipline.exists_head?_of_perm {d : Discipline} {q : String} {l l' : List Job} {j : Job}
    (hp : l.Perm l') (hj : d.head? q l = some j) :
    ∃ k, d.head? q l' = some k ∧
      (j = k ∨ j.created = k.created ∧ [j, k].Sublist l ∧ [k, j].Sublist l') := by
  obtain ⟨hjl, hjq, hjd⟩ := mem_of_head? hj
  obtain ⟨k, hk⟩ := exists_head? (hp.mem_iff.mp hjl) hjq hjd
  obtain ⟨hkl, hkq, hkd⟩ := mem_of_head? hk
  refine ⟨k, hk, ?_⟩
  by_cases hjk : j = k
  · exact .inl hjk
  have hage : j.created.toInt = k.created.toInt :=
    Int.le_antisymm (head?_le hj (hp.mem_iff.mpr hkl) hkq hkd)
      (head?_le hk (hp.mem_iff.mp hjl) hjq hjd)
  -- a head has nobody of its age in front of it
  have hbehind : ∀ {m : List Job} {a b : Job}, a ≠ b → a.created.toInt = b.created.toInt →
      d.head? q m = some a → b ∈ m → b.queue = some q → d.counts b = true → [a, b].Sublist m := by
    intro m a b hab hage ha hb hbq hbd
    obtain ⟨m₁, m₂, hm, hm₁, -⟩ := earliest?_eq_some_iff.mp ha
    have hbm : b ∈ m₂ := by
      have hmem : b ∈ d.members q m := mem_members.mpr ⟨hb, hbq, hbd⟩
      rw [hm] at hmem
      rcases List.mem_append.mp hmem with hmem | hmem
      · have := hm₁ b hmem
        omega
      · exact (List.mem_cons.mp hmem).resolve_left (Ne.symm hab)
    have hsub : [a, b].Sublist (d.members q m) := by
      rw [hm]
      exact (List.cons_sublist_cons.mpr (List.singleton_sublist.mpr hbm)).trans
        (List.sublist_append_right _ _)
    exact hsub.trans List.filter_sublist
  exact .inr ⟨Int64.toInt_inj.mp hage, hbehind hjk hage hj (hp.mem_iff.mpr hkl) hkq hkd,
    hbehind (Ne.symm hjk) hage.symm hk (hp.mem_iff.mp hjl) hjq hjd⟩

/-- Two jobs of one age stand one way in the one roster and the other way in the other.  Either
both could be handed out once they are due, the one here and the other there, or they head the same
queue and one of them could. -/
def Reordered (d : Discipline) (r f : Roster) : Prop :=
  ∃ j k, j ≠ k ∧ j.created = k.created ∧ [j, k].Sublist r.jobs ∧ [k, j].Sublist f.jobs ∧
    (j ∈ r.eligible endOfTime d ∧ k ∈ f.eligible endOfTime d ∨
      ∃ q, (d.within q).head? q r.jobs = some j ∧ (d.within q).head? q f.jobs = some k ∧
        (j ∈ r.eligible endOfTime d ∨ k ∈ f.eligible endOfTime d))

/-- Two rosters with the same jobs and the same blocked ones among them. -/
structure Roster.SameFacts (r f : Roster) : Prop where
  perm : r.jobs.Perm f.jobs
  unique : (r.jobs.map Job.id).Nodup
  blocked : ∀ id, r.isBlocked id = f.isBlocked id

namespace Roster

variable {r f : Roster} {d : Discipline}

theorem SameFacts.symm (h : r.SameFacts f) : f.SameFacts r :=
  ⟨h.perm.symm, (h.perm.map Job.id).nodup_iff.mp h.unique, fun id => (h.blocked id).symm⟩

theorem SameFacts.free_iff (h : r.SameFacts f) {j : Job} : r.Free j ↔ f.Free j := by
  simp only [Free, h.blocked, h.perm.mem_iff]

/-- Who may be handed out in the end on one side may be so on the other, or somebody else of its age
heads its queue there. -/
theorem SameFacts.mem_eligible (h : r.SameFacts f) {j : Job} (hj : j ∈ r.eligible endOfTime d) :
    j ∈ f.eligible endOfTime d ∨
      ∃ q k, j ≠ k ∧ j.created = k.created ∧ [j, k].Sublist r.jobs ∧ [k, j].Sublist f.jobs ∧
        (d.within q).head? q r.jobs = some j ∧ (d.within q).head? q f.jobs = some k := by
  obtain ⟨hmem, hrun, hfree, hhead⟩ := (mem_eligible_endOfTime h.unique).mp hj
  by_cases hsame : ∀ q, j.queue = some q → (d.within q).head? q f.jobs = some j
  · exact .inl ((mem_eligible_endOfTime h.symm.unique).mpr
      ⟨h.perm.mem_iff.mp hmem, hrun, h.free_iff.mp hfree, hsame⟩)
  · simp only [not_forall] at hsame
    obtain ⟨q, hq, hne⟩ := hsame
    obtain ⟨k, hk, rfl | ⟨hage, hl, hl'⟩⟩ := Discipline.exists_head?_of_perm h.perm (hhead q hq)
    · exact absurd hk hne
    · exact .inr ⟨q, k, fun hjk => hne (hjk ▸ hk), hage, hl, hl', hhead q hq, hk⟩

/-- Two jobs of one age that may both be handed out are so in the order of the roster. -/
theorem pair_sublist_eligible (hu : (r.jobs.map Job.id).Nodup) {now : Int64} {j k : Job}
    (hj : j ∈ r.eligible now d) (hk : k ∈ r.eligible now d) (hage : j.created = k.created)
    (hsub : [j, k].Sublist r.jobs) : [j, k].Sublist (r.eligible now d) := by
  have hsel := hsub.filter fun j => (r.eligible now d).contains j
  rw [List.filter_eq_self.mpr (by simp [hj, hk])] at hsel
  rw [eligible_eq_oldestFirst hu now d]
  exact (oldestFirst_sameOrder _).symm.pair_sublist hage hsel

/-- **Two rosters with the same facts hand out the same jobs at all times, in the same order,
exactly if nobody is reordered.** -/
theorem eligible_eq_iff (h : r.SameFacts f) :
    (∀ now, f.eligible now d = r.eligible now d) ↔ ¬Reordered d r f := by
  constructor
  · rintro hall ⟨j, k, hne, hage, hl, hl', ⟨hj, hk⟩ | ⟨q, hjhead, hkhead, hor⟩⟩
    · have hsame := hall endOfTime
      have hjk := pair_sublist_eligible h.unique hj (hsame ▸ hk) hage hl
      have hkj := pair_sublist_eligible h.symm.unique hk (hsame ▸ hj) hage.symm hl'
      rw [hsame] at hkj
      exact not_pair_sublist_swap hne (nodup_eligible h.unique _ d) hjk hkj
    · rw [hall endOfTime] at hor
      rcases hor with hj | hk
      · rw [← hall endOfTime] at hj
        have hjf := (mem_eligible_endOfTime h.symm.unique).mp hj
        have heq := hjf.2.2.2 q (mem_of_head? hjhead).2.1
        exact hne (Option.some.inj (heq.symm.trans hkhead))
      · have hkr := (mem_eligible_endOfTime h.unique).mp hk
        have heq := hkr.2.2.2 q (mem_of_head? hkhead).2.1
        exact hne (Option.some.inj (hjhead.symm.trans heq))
  · intro hnot now
    rw [eligible_eq_filter f, eligible_eq_filter r]
    congr 1
    have hmem : ∀ j, j ∈ f.eligible endOfTime d ↔ j ∈ r.eligible endOfTime d := by
      intro j
      constructor
      · intro hj
        rcases h.symm.mem_eligible hj with hj' | ⟨q, k, hne, hage, hl, hl', hjh, hkh⟩
        · exact hj'
        · exact absurd ⟨k, j, hne.symm, hage.symm, hl', hl, .inr ⟨q, hkh, hjh, .inr hj⟩⟩ hnot
      · intro hj
        rcases h.mem_eligible hj with hj' | ⟨q, k, hne, hage, hl, hl', hjh, hkh⟩
        · exact hj'
        · exact absurd ⟨j, k, hne, hage, hl, hl', .inr ⟨q, hjh, hkh, .inl hj⟩⟩ hnot
    have hsel : (fun j => (f.eligible endOfTime d).contains j)
        = fun j => (r.eligible endOfTime d).contains j := by
      funext j
      rw [Bool.eq_iff_iff, List.contains_iff_mem, List.contains_iff_mem, hmem]
    rw [eligible_eq_oldestFirst h.symm.unique endOfTime d,
      eligible_eq_oldestFirst h.unique endOfTime d, hsel]
    refine (SameOrder.oldestFirst_eq (SameOrder.of_perm (h.perm.filter _) ?_)).symm
    intro a b hab hage hl hl'
    have ha : a ∈ r.eligible endOfTime d := by
      simpa using (List.mem_filter.mp (hl.subset (by simp))).2
    have hb : b ∈ r.eligible endOfTime d := by
      simpa using (List.mem_filter.mp (hl.subset (by simp))).2
    exact hnot ⟨a, b, hab, hage, hl.trans List.filter_sublist, hl'.trans List.filter_sublist,
      .inl ⟨ha, (hmem b).mpr hb⟩⟩

end Roster

/-! ## 4. Runs in which ages are kept -/

/-- An amendment leaves the creation times of stored jobs alone.  Nothing is asked of any other
change. -/
def Change.KeepsAges (x : MemoryIndex) : Change → Prop
  | amend jobs => ∀ j ∈ jobs, ∀ k ∈ x.roster.jobs, k.id = j.id → k.created = j.created
  | _ => True

def Change.isReopen : Change → Bool
  | reopen _ => true
  | _ => false

/-- In a run from `x` on, every amendment that comes after a restart keeps ages.  `restarted` says
whether there was a restart before. -/
def AgesKept : Bool → MemoryIndex → List Change → Prop
  | _, _, [] => True
  | restarted, x, c :: rest =>
    (restarted = true → c.KeepsAges x) ∧ AgesKept (restarted || c.isReopen) (x.after c) rest

theorem jobs_foldl_replace : ∀ (jobs : List Job) {r : Roster} {t : Tables}, r.jobs = t.jobs →
    (jobs.foldl Roster.replace r).jobs = (t.amend jobs).jobs
  | [], _, _, h => h
  | j :: rest, r, t, h => by
    have hj : (r.replace j).jobs = (t.replace j).jobs := by
      simp only [Roster.replace, Tables.replace, h]
    exact jobs_foldl_replace rest hj

/-- As long as nothing is read afresh, roster and tables list their jobs alike. -/
theorem jobs_eq_of_perform {x y : MemoryIndex} {c : Change}
    (h : x.roster.jobs = x.store.inner.jobs) (hc : c.isReopen = false)
    (hxy : x.perform c = .ok y) : y.roster.jobs = y.store.inner.jobs := by
  cases c with
  | insert batch =>
    obtain ⟨-, -, -, rfl⟩ := Index.insert_eq_ok_iff.mp hxy
    simp only [Index.roster_holding, Index.inner_holding, Roster.jobs_insert, Tables.append, h]
  | setRunning id running =>
    obtain ⟨-, -, -, rfl⟩ := Index.setRunning_eq_ok_iff.mp hxy
    simp only [Index.roster_holding, Index.inner_holding, h]
  | reschedule id running attempt due payload =>
    obtain ⟨-, -, -, rfl⟩ := Index.reschedule_eq_ok_iff.mp hxy
    simp only [Index.roster_holding, Index.inner_holding, h]
  | clearRunning =>
    obtain ⟨-, rfl⟩ := Index.clearRunning_eq_ok_iff.mp hxy
    simp only [Index.roster_holding, Index.inner_holding, Roster.clearRunning,
      Tables.clearRunning, h]
  | amend jobs =>
    obtain ⟨-, rfl⟩ := Index.amend_eq_ok_iff.mp hxy
    exact jobs_foldl_replace _ h
  | delete ids =>
    obtain ⟨-, rfl⟩ := Index.delete_eq_ok_iff.mp hxy
    simp only [Index.roster_holding, Index.inner_holding, Roster.remove, Tables.delete, h]
  | reopen d => exact absurd hc (by simp [Change.isReopen])
  | refuse refusing =>
    obtain rfl := Except.ok.inj hxy
    exact h

namespace SameOrder

variable {r : Roster} {t : Tables}

theorem modifyFirst (h : SameOrder r.jobs t.jobs) (hs : InStep r t) {id : JobId} {f : Job → Job}
    (hf : ∀ j ∈ r.jobs, j.id = id → (f j).created = j.created) :
    SameOrder (modifyFirst (·.id == id) f r.jobs) (modifyFirst (·.id == id) f t.jobs) := by
  rw [modifyFirst_id_eq_map hs.roster_unique, modifyFirst_id_eq_map hs.tables_unique]
  refine h.map_of_mem fun j hj => ?_
  by_cases hid : j.id = id
  · rw [if_pos hid, hf j hj hid]
  · rw [if_neg hid]

theorem amend : ∀ (jobs : List Job) {r : Roster} {t : Tables}, SameOrder r.jobs t.jobs →
    InStep r t → (∀ j ∈ jobs, ∀ k ∈ r.jobs, k.id = j.id → k.created = j.created) →
      SameOrder (jobs.foldl Roster.replace r).jobs (t.amend jobs).jobs
  | [], _, _, h, _, _ => h
  | j :: rest, r, t, h, hs, hages => by
    have hj : SameOrder (r.replace j).jobs (t.replace j).jobs :=
      h.modifyFirst hs fun k hk hid => (hages j List.mem_cons_self k hk hid).symm
    refine amend rest hj (hs.replace j) fun i hi k hk hid => ?_
    -- whatever stands there now has the id and the age of what stood there before
    rw [Roster.replace, modifyFirst_id_eq_map hs.roster_unique] at hk
    obtain ⟨k₀, hk₀, rfl⟩ := List.mem_map.mp hk
    by_cases hkj : k₀.id = j.id
    · rw [if_pos hkj] at hid ⊢
      rw [← hages j List.mem_cons_self k₀ hk₀ hkj]
      exact hages i (List.mem_cons_of_mem _ hi) k₀ hk₀ (hkj.trans hid)
    · rw [if_neg hkj] at hid ⊢
      exact hages i (List.mem_cons_of_mem _ hi) k₀ hk₀ hid

theorem perform {x y : MemoryIndex} {c : Change} (h : SameOrder x.roster.jobs x.store.inner.jobs)
    (hs : InStep x.roster x.store.inner) (hc : c.KeepsAges x) (hxy : x.perform c = .ok y) :
    SameOrder y.roster.jobs y.store.inner.jobs := by
  cases c with
  | insert batch =>
    obtain ⟨-, -, -, rfl⟩ := Index.insert_eq_ok_iff.mp hxy
    rw [Index.roster_holding, Roster.jobs_insert]
    exact h.append _
  | setRunning id running =>
    obtain ⟨-, -, -, rfl⟩ := Index.setRunning_eq_ok_iff.mp hxy
    exact h.modifyFirst hs fun _ _ _ => rfl
  | reschedule id running attempt due payload =>
    obtain ⟨-, -, -, rfl⟩ := Index.reschedule_eq_ok_iff.mp hxy
    exact h.modifyFirst hs fun _ _ _ => rfl
  | clearRunning =>
    obtain ⟨-, rfl⟩ := Index.clearRunning_eq_ok_iff.mp hxy
    exact h.map fun _ => rfl
  | amend jobs =>
    obtain ⟨-, rfl⟩ := Index.amend_eq_ok_iff.mp hxy
    exact h.amend _ hs fun j hj => hc j (List.mem_of_mem_filter hj)
  | delete ids =>
    obtain ⟨-, rfl⟩ := Index.delete_eq_ok_iff.mp hxy
    exact h.filter _
  | reopen d =>
    obtain rfl := Index.open_eq_ok_iff.mp hxy
    exact oldestFirst_sameOrder _
  | refuse refusing =>
    obtain rfl := Except.ok.inj hxy
    exact h

end SameOrder

/-- Where ages are kept, roster and tables agree on the order of jobs of one age. -/
theorem AgesKept.sameOrder : ∀ {changes : List Change} {restarted : Bool} {x : MemoryIndex},
    AgesKept restarted x changes → Reachable x → (∀ c ∈ changes, c.WellFormed) →
      (restarted = false → x.roster.jobs = x.store.inner.jobs) →
      SameOrder x.roster.jobs x.store.inner.jobs →
        SameOrder (x.run changes).roster.jobs (x.run changes).store.inner.jobs
  | [], _, _, _, _, _, _, h => h
  | c :: rest, restarted, x, hkept, hx, hw, heq, h => by
    have hc : restarted = true → c.KeepsAges x := hkept.1
    have hrest : AgesKept (restarted || c.isReopen) (x.after c) rest := hkept.2
    have hwc : c.WellFormed := hw c List.mem_cons_self
    have hafter : (restarted || c.isReopen) = false → (x.after c).roster.jobs
        = (x.after c).store.inner.jobs := by
      intro hnone
      obtain ⟨hr, hcr⟩ := Bool.or_eq_false_iff.mp hnone
      cases hxy : x.perform c with
      | ok y => rw [Index.after, hxy]; exact jobs_eq_of_perform (heq hr) hcr hxy
      | error e => rw [Index.after, hxy]; exact heq hr
    have hsame : SameOrder (x.after c).roster.jobs (x.after c).store.inner.jobs := by
      by_cases hno : (restarted || c.isReopen) = false
      · rw [hafter hno]
        exact .refl _
      · cases hxy : x.perform c with
        | error e => rw [Index.after, hxy]; exact h
        | ok y =>
          rw [Index.after, hxy]
          refine h.perform hx.inStep ?_ hxy
          cases hr : restarted with
          | true => exact hc hr
          | false =>
            -- the change itself is the restart
            cases c with
            | reopen d => trivial
            | _ => exact absurd (by simp [hr, Change.isReopen]) hno
    show SameOrder ((x.after c).run rest).roster.jobs ((x.after c).run rest).store.inner.jobs
    exact AgesKept.sameOrder hrest (hx.after hwc)
      (fun e he => hw e (List.mem_cons_of_mem _ he)) hafter hsame

/-! ## 5. Restarts -/

/-- The index after a restart. -/
def Index.reread (x : MemoryIndex) (d : Discipline) : MemoryIndex :=
  { store := x.store, roster := .ofSnapshot x.store.inner.snapshot, discipline := d }

theorem Index.open_store (x : MemoryIndex) (d : Discipline) :
    Index.open x.store d = .ok (x.reread d) :=
  Index.open_eq_ok_iff.mpr rfl

/-- A roster that is read afresh has the same facts. -/
theorem InStep.sameFacts_reread {x : MemoryIndex} (h : InStep x.roster x.store.inner)
    (d : Discipline) : x.roster.SameFacts (x.reread d).roster := by
  have hf : InStep (x.reread d).roster x.store.inner := h.reopen
  have hperm := h.perm.trans hf.perm.symm
  refine ⟨hperm, h.roster_unique, fun id => ?_⟩
  simp only [Roster.isBlocked, h.same_edges, hf.same_edges]
  congr 1
  funext e
  rw [Bool.eq_iff_iff, List.any_eq_true, List.any_eq_true]
  simp only [hperm.mem_iff]

/-- Where roster and tables agree on the order of jobs of one age, a restart reorders nobody. -/
theorem not_reordered_of_sameOrder {x : MemoryIndex} (hs : InStep x.roster x.store.inner)
    (h : SameOrder x.roster.jobs x.store.inner.jobs) (d : Discipline) :
    ¬Reordered d x.roster (x.reread d).roster := by
  rintro ⟨j, k, hne, hage, hl, hl', -⟩
  have hread : SameOrder x.roster.jobs (x.reread d).roster.jobs :=
    h.trans (oldestFirst_sameOrder _).symm
  have hf : InStep (x.reread d).roster x.store.inner := hs.reopen
  exact not_pair_sublist_swap hne (.of_map _ hf.roster_unique) (hread.pair_sublist hage hl) hl'

/-- **When a restart changes what may be handed out.**  After every run and under either discipline:
the restarted index hands out the same jobs in the same order at all times exactly if nobody is
reordered; and it does, if no amendment moved a creation time after an earlier restart. -/
theorem eligible_after_restart (d₀ d : Discipline) {changes : List Change}
    (hw : ∀ c ∈ changes, c.WellFormed) :
    let x := (Index.fresh d₀).run changes
    ((∀ now, (x.reread d).eligible now = x.roster.eligible now d) ↔
      ¬Reordered d x.roster (x.reread d).roster) ∧
    (AgesKept false (.fresh d₀) changes →
      ∀ now, (x.reread d).eligible now = x.roster.eligible now d) := by
  intro x
  have hs : InStep x.roster x.store.inner := (reachable_run d₀ hw).inStep
  have hiff : (∀ now, (x.reread d).eligible now = x.roster.eligible now d) ↔
      ¬Reordered d x.roster (x.reread d).roster := Roster.eligible_eq_iff (hs.sameFacts_reread d)
  refine ⟨hiff, fun hkept => hiff.mpr ?_⟩
  exact not_reordered_of_sameOrder hs
    (hkept.sameOrder (.fresh d₀) hw (fun _ => rfl) (.refl _)) d

/-- Two jobs of one queue.  The one that is inserted first is the younger one. -/
def firstIn : Job := { id := ⟨"first in"⟩, factory := "http", queue := some "Q", created := 2 }

def olderOne : Job := { firstIn with id := ⟨"older one"⟩, created := 1 }

/-- They come, the store is read afresh, and the first one is amended. -/
def amendedRun (amended : Job) : List Change :=
  [.insert [{ job := firstIn }, { job := olderOne }], .reopen .runToCompletion, .amend [amended]]

def amendedIndex (amended : Job) : MemoryIndex :=
  (Index.fresh .runToCompletion).run (amendedRun amended)

/-- An amendment that only moves the due time changes nothing. -/
theorem eligible_after_postponed :
    (∀ c ∈ amendedRun { firstIn with due := 5 }, c.WellFormed) ∧
      AgesKept false (.fresh .runToCompletion) (amendedRun { firstIn with due := 5 }) ∧
      ∀ now, ((amendedIndex { firstIn with due := 5 }).reread .runToCompletion).eligible now
        = (amendedIndex { firstIn with due := 5 }).roster.eligible now .runToCompletion := by
  have hw : ∀ c ∈ amendedRun { firstIn with due := 5 }, c.WellFormed := by decide
  have hkept : AgesKept false (.fresh .runToCompletion) (amendedRun { firstIn with due := 5 }) := by
    refine ⟨nofun, nofun, fun _ => ?_, trivial⟩
    show ∀ j ∈ [{ firstIn with due := 5 }], ∀ k ∈ _, _
    have hjobs : (((Index.fresh .runToCompletion).after (.insert [{ job := firstIn },
        { job := olderOne }])).after (.reopen .runToCompletion)).roster.jobs
          = [olderOne, firstIn] := by cbv
    rw [hjobs]
    decide
  exact ⟨hw, hkept, (eligible_after_restart .runToCompletion .runToCompletion hw).2 hkept⟩

/-- One that makes it as old as the other does: the head of the queue is another job after the next
restart. -/
theorem tied_restart :
    ¬∀ (d₀ d : Discipline) (changes : List Change) (now : Int64), (∀ c ∈ changes, c.WellFormed) →
      (((Index.fresh d₀).run changes).reread d).eligible now
        = ((Index.fresh d₀).run changes).roster.eligible now d := by
  intro h
  have hsame := h .runToCompletion .runToCompletion (amendedRun { firstIn with created := 1 }) 100
    (by decide)
  have hlive : (amendedIndex { firstIn with created := 1 }).roster.eligible 100 .runToCompletion
      = [olderOne] := by cbv
  have hread : ((amendedIndex { firstIn with created := 1 }).reread .runToCompletion).eligible 100
      = [{ firstIn with created := 1 }] := by cbv
  exact absurd (hlive.symm.trans (hsame.symm.trans hread)) (by decide)

end Backlog
