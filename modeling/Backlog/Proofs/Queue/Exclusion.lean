/-
# When a queue keeps its members apart

Where running heads keep their place (`runToCompletion`), at most one member of a queue is meant to
run or to be eligible at any time.  That is so unless a job overtakes: the head of a queue is found
by age alone, so a job that comes while the head runs and is created before it becomes the head in
its place.

* `Index.busy`: the members of a queue that run or may be handed out at some time;
* `Overtaken`: a member runs although a later and older one runs too, or only has to become due;
* `Handling.started_before`: whatever runs is older than everything that came to its queue before
  it;
* `Handling.busy_le_one_iff`: exclusion holds in a queue exactly if it is not overtaken;
* `Handling.running_head`: if nobody is admitted in front of a running member, whatever runs heads
  its queue, and so no queue is ever overtaken (`Handling.not_overtaken`);
* `queue_exclusion` puts the two together, and `busy_of_backdated` shows a queue that is overtaken.
-/
import Backlog.Proofs.Handling
import Mathlib

namespace Backlog

/-! ## 1. Busy members -/

/-- The members of `q` that run, or may be handed out at `now`. -/
def Index.busy (x : MemoryIndex) (q : String) (now : Int64) : List Job :=
  x.roster.jobs.filter fun j => j.queue == some q && (j.running || (x.eligible now).contains j)

/-- A member of `q` runs, and one that came later but was created earlier runs as well, or heads
the queue and is free. -/
def Overtaken (x : MemoryIndex) (q : String) : Prop :=
  ∃ j k, [j, k].Sublist x.store.inner.jobs ∧ j.queue = some q ∧ k.queue = some q ∧
    k.created.toInt < j.created.toInt ∧ j.running = true ∧
      (k.running = true ∨
        Discipline.runToCompletion.head? q x.roster.jobs = some k ∧ x.roster.Free k)

theorem Index.mem_busy {x : MemoryIndex} {q : String} {now : Int64} {j : Job} :
    j ∈ x.busy q now ↔
      j ∈ x.roster.jobs ∧ j.queue = some q ∧ (j.running = true ∨ j ∈ x.eligible now) := by
  simp [Index.busy]

theorem length_le_one_iff {α : Type} {l : List α} (hl : l.Nodup) :
    l.length ≤ 1 ↔ ∀ a ∈ l, ∀ b ∈ l, a = b := by
  match l with
  | [] => simp
  | [a] => simp
  | a :: b :: rest =>
    have hne : a ≠ b := by
      rintro rfl
      exact (List.nodup_cons.mp hl).1 List.mem_cons_self
    have hall : ¬∀ c ∈ a :: b :: rest, ∀ e ∈ a :: b :: rest, c = e :=
      fun h => hne (h a (by simp) b (by simp))
    exact ⟨fun h => absurd h (by simp), fun h => absurd h hall⟩

theorem pair_sublist_or {α : Type} {a b : α} (hne : a ≠ b) : ∀ {l : List α}, a ∈ l → b ∈ l →
    [a, b].Sublist l ∨ [b, a].Sublist l
  | c :: l, ha, hb => by
    rcases List.mem_cons.mp ha with rfl | hal
    · rcases List.mem_cons.mp hb with rfl | hbl
      · exact absurd rfl hne
      · exact .inl (List.cons_sublist_cons.mpr (List.singleton_sublist.mpr hbl))
    · rcases List.mem_cons.mp hb with rfl | hbl
      · exact .inr (List.cons_sublist_cons.mpr (List.singleton_sublist.mpr hal))
      · rcases pair_sublist_or hne hal hbl with h | h
        · exact .inl (h.cons c)
        · exact .inr (h.cons c)

/-! ## 2. Exclusion, and how it is lost -/

/-- If `b` runs in the queue of `a`, it was created before `a`. -/
def StartedBefore (a b : Job) : Prop :=
  ∀ q, a.queue = some q → b.queue = some q → b.running = true → b.created.toInt < a.created.toInt

variable {admits : List Job → List Job → Prop} {log : List LogEntry} {x : MemoryIndex} {q : String}

/-- Whatever runs was created before everything that came to its queue earlier. -/
theorem Handling.started_before (h : Handling admits .runToCompletion log x) :
    x.store.inner.jobs.Pairwise StartedBefore := by
  refine Handling.of_effect (P := fun _ _ t => t.Pairwise StartedBefore) .nil ?_ h
  intro log entries r t r' t' hu hsame ht he
  cases he with
  | enter hnew _ =>
    refine List.pairwise_append.mpr ⟨ht, List.pairwise_of_forall_mem_list fun a _ b hb => ?_,
      fun a _ b hb => ?_⟩
    · exact fun q _ _ hrun => absurd (hnew b hb ▸ hrun) (by simp)
    · exact fun q _ _ hrun => absurd (hnew b hb ▸ hrun) (by simp)
  | @start _ _ j hj hhead =>
    have hkeep := startedAt_keepsPlace j.id
    rw [List.pairwise_map, List.pairwise_iff_forall_sublist]
    intro a b hab q haq hbq hrun
    rw [hkeep.queue] at haq hbq
    rw [hkeep.created, hkeep.created]
    rcases running_of_startedAt hrun with hb | hrun
    · -- `b` is the head that is being started
      have hjt : j ∈ t := hsame.mem_iff.mp hj
      obtain rfl : b = j := List.inj_on_of_nodup_map hu (hab.subset (by simp)) hjt hb
      have hheadt : Discipline.runToCompletion.head? q t = some b :=
        (hsame.head?_eq _ q).symm.trans (hhead q hbq)
      exact lt_of_head? hu hab haq rfl hheadt
    · exact ht.forall_sublist hab q haq hbq hrun
  | @settle _ _ f hf hrun =>
    refine ht.map f fun a b hab q haq hbq hb => ?_
    rw [hf.queue] at haq hbq
    rw [hf.created, hf.created]
    exact hab q haq hbq (hrun b hb)
  | leave => exact ht.filter _
  | reread => exact ht

/-- Two busy members of one queue show that it is overtaken. -/
theorem overtaken_of_running (h : Handling admits .runToCompletion log x) {now : Int64}
    {j k : Job} (hj : j ∈ x.store.inner.jobs) (hk : k ∈ x.store.inner.jobs) (hne : j ≠ k)
    (hjq : j.queue = some q) (hkq : k.queue = some q) (hjrun : j.running = true)
    (hkbusy : k.running = true ∨ k ∈ x.eligible now) : Overtaken x q := by
  have hu := h.inStep.tables_unique
  have hbefore : ∀ {a b : Job}, [a, b].Sublist x.store.inner.jobs → StartedBefore a b :=
    h.started_before.forall_sublist
  rcases hkbusy with hkrun | hkel
  · rcases pair_sublist_or hne hj hk with hsub | hsub
    · exact ⟨j, k, hsub, hjq, hkq, hbefore hsub q hjq hkq hkrun, hjrun, .inl hkrun⟩
    · exact ⟨k, j, hsub, hkq, hjq, hbefore hsub q hkq hjq hjrun, hkrun, .inl hjrun⟩
  · rw [Index.eligible, h.discipline] at hkel
    obtain ⟨-, -, -, hhead, hfree⟩ :=
      (Roster.mem_eligible_runToCompletion_iff h.inStep.roster_unique).mp hkel
    have hheadr := hhead q hkq
    have hheadt := (h.head?_tables q).symm.trans hheadr
    rcases pair_sublist_or hne hj hk with hsub | hsub
    · exact ⟨j, k, hsub, hjq, hkq, lt_of_head? hu hsub hjq rfl hheadt, hjrun,
        .inr ⟨hheadr, hfree⟩⟩
    · -- `k` heads the queue, so it cannot be later than the running `j`
      have hlt := hbefore hsub q hkq hjq hjrun
      have hle := head?_le hheadt hj hjq rfl
      omega

/-- Once the job that overtakes is due, it is busy beside the running one. -/
theorem Overtaken.exists_busy (ho : Overtaken x q) (h : Handling admits .runToCompletion log x) :
    ∃ now j k, j ∈ x.busy q now ∧ k ∈ x.busy q now ∧ j ≠ k := by
  obtain ⟨j, k, hsub, hjq, hkq, hlt, hjrun, hk⟩ := ho
  have hjmem : j ∈ x.roster.jobs := h.inStep.mem_iff.mpr (hsub.subset (by simp))
  have hkmem : k ∈ x.roster.jobs := h.inStep.mem_iff.mpr (hsub.subset (by simp))
  have hkbusy : k.running = true ∨ k ∈ x.eligible k.due := by
    by_cases hkrun : k.running = true
    · exact .inl hkrun
    · obtain ⟨hhead, hfree⟩ := hk.resolve_left hkrun
      have hheads : ∀ p, k.queue = some p →
          Discipline.runToCompletion.head? p x.roster.jobs = some k := by
        intro p hp
        obtain rfl : q = p := Option.some.inj (hkq.symm.trans hp)
        exact hhead
      have hdue : k.isDue k.due = true := (Job.isDue_iff k k.due).mpr (Int.le_refl _)
      rw [Index.eligible, h.discipline]
      exact .inr ((Roster.mem_eligible_runToCompletion_iff h.inStep.roster_unique).mpr
        ⟨hkmem, by simpa using hkrun, hdue, hheads, hfree⟩)
  refine ⟨k.due, j, k, Index.mem_busy.mpr ⟨hjmem, hjq, .inl hjrun⟩,
    Index.mem_busy.mpr ⟨hkmem, hkq, hkbusy⟩, ?_⟩
  rintro rfl
  omega

/-- **Exclusion holds exactly where nobody overtakes.** -/
theorem Handling.busy_le_one_iff (h : Handling admits .runToCompletion log x) (q : String) :
    (∀ now, (x.busy q now).length ≤ 1) ↔ ¬Overtaken x q := by
  have hnodup : ∀ now, (x.busy q now).Nodup := fun now =>
    (List.Nodup.of_map _ h.inStep.roster_unique).filter _
  constructor
  · intro hone ho
    obtain ⟨now, j, k, hj, hk, hne⟩ := ho.exists_busy h
    exact hne ((length_le_one_iff (hnodup now)).mp (hone now) j hj k hk)
  · intro hnot now
    refine (length_le_one_iff (hnodup now)).mpr fun j hj k hk => ?_
    obtain ⟨hjmem, hjq, hjbusy⟩ := Index.mem_busy.mp hj
    obtain ⟨hkmem, hkq, hkbusy⟩ := Index.mem_busy.mp hk
    have hjt := h.inStep.mem_iff.mp hjmem
    have hkt := h.inStep.mem_iff.mp hkmem
    by_contra hne
    rcases hjbusy with hjrun | hjel
    · exact hnot (overtaken_of_running h hjt hkt hne hjq hkq hjrun hkbusy)
    · rcases hkbusy with hkrun | hkel
      · exact hnot (overtaken_of_running h hkt hjt (Ne.symm hne) hkq hjq hkrun (.inr hjel))
      · -- two eligible members would both head the queue
        have hjhead := Roster.head?_of_eligible h.inStep.roster_unique hjel hjq
        have hkhead := Roster.head?_of_eligible h.inStep.roster_unique hkel hkq
        exact hne (Option.some.inj (hjhead.symm.trans hkhead))

/-! ## 3. Admitting nobody in front of a running member -/

/-- No new job is created before a running member of its queue. -/
def NoOvertaking (stored new : List Job) : Prop :=
  ∀ s ∈ new, ∀ j ∈ stored, j.running = true → NoLaterInQueue j s

/-- Whatever runs heads its queue. -/
theorem Handling.running_head (h : Handling NoOvertaking .runToCompletion log x) {j : Job}
    (hj : j ∈ x.store.inner.jobs) (hrun : j.running = true) (hq : j.queue = some q) :
    Discipline.runToCompletion.head? q x.store.inner.jobs = some j := by
  have hinv : ∀ j ∈ x.store.inner.jobs, j.running = true → ∀ q, j.queue = some q →
      Discipline.runToCompletion.head? q x.store.inner.jobs = some j := by
    refine Handling.of_effect (P := fun _ _ t => ∀ j ∈ t, j.running = true → ∀ q,
      j.queue = some q → Discipline.runToCompletion.head? q t = some j) (by simp) ?_ h
    intro log entries r t r' t' hu hsame ht he j hj hrun q hq
    cases he with
    | enter hnew ha =>
      rcases List.mem_append.mp hj with hj | hj
      · exact Discipline.head?_append (ht j hj hrun q hq) fun s hs hsq =>
          ha s hs j (hsame.mem_iff.mpr hj) hrun q hq hsq
      · exact absurd (hnew j hj ▸ hrun) (by simp)
    | @start _ _ k hk hhead =>
      have hkeep := startedAt_keepsPlace k.id
      obtain ⟨i, hi, rfl⟩ := List.mem_map.mp hj
      rw [hkeep.queue] at hq
      refine Discipline.head?_map hkeep.queue hkeep.created ?_
      rcases running_of_startedAt hrun with hik | hrun
      · obtain rfl : i = k := List.inj_on_of_nodup_map hu hi (hsame.mem_iff.mp hk) hik
        exact (hsame.head?_eq _ q).symm.trans (hhead q hq)
      · exact ht i hi hrun q hq
    | @settle _ _ f hf hkeeps =>
      obtain ⟨i, hi, rfl⟩ := List.mem_map.mp hj
      rw [hf.queue] at hq
      exact Discipline.head?_map hf.queue hf.created (ht i hi (hkeeps i hrun) q hq)
    | leave =>
      obtain ⟨hj, hp⟩ := List.mem_filter.mp hj
      exact Discipline.head?_filter (ht j hj hrun q hq) hp
    | reread => exact ht j hj hrun q hq
  exact hinv j hj hrun q hq

theorem Handling.not_overtaken (h : Handling NoOvertaking .runToCompletion log x) (q : String) :
    ¬Overtaken x q := by
  rintro ⟨j, k, hsub, hjq, hkq, hlt, hjrun, -⟩
  have hhead := h.running_head (hsub.subset (by simp)) hjrun hjq
  have hle := head?_le hhead (hsub.subset (by simp)) hkq rfl
  omega

/-! ## 4. Exclusion -/

/-- Any job is admitted, whenever it was created. -/
def Anyone (_stored _new : List Job) : Prop := True

/-- **When members of a queue are kept apart.**  In every run, a queue has at most one busy member
at all times exactly if it is not overtaken; and it has, if no job is ever admitted in front of a
running member of its queue. -/
theorem queue_exclusion {log : List LogEntry} {x : MemoryIndex} (q : String) :
    (Handling Anyone .runToCompletion log x →
      ((∀ now, (x.busy q now).length ≤ 1) ↔ ¬Overtaken x q)) ∧
    (Handling NoOvertaking .runToCompletion log x → ∀ now, (x.busy q now).length ≤ 1) := by
  refine ⟨fun h => h.busy_le_one_iff q, fun h => ?_⟩
  exact (h.busy_le_one_iff q).mpr (h.not_overtaken q)

/-- A job that is created at 10 and handed out, one that is created after it, and one that comes
last but claims to be created first. -/
def incumbent : Job := { id := ⟨"incumbent"⟩, factory := "http", queue := some "Q", created := 10 }

def follower : Job := { incumbent with id := ⟨"follower"⟩, created := 12 }

def backdated : Job := { incumbent with id := ⟨"backdated"⟩, created := 5 }

/-- The index in which the first of them runs and the second one stands behind it. -/
def heldQueue : MemoryIndex :=
  (Index.fresh .runToCompletion).run
    [.insert [{ job := incumbent }, { job := follower }], .setRunning incumbent.id true]

theorem exists_handling_heldQueue :
    ∃ log, Handling NoOvertaking .runToCompletion log heldQueue := by
  have h₀ : Handling NoOvertaking .runToCompletion [] (.fresh _) := .fresh
  have h₁ := h₀.after (c := .insert [{ job := incumbent }, { job := follower }]) (by cbv)
    fun _ => .insert (by decide) (by decide) (by simp [NoOvertaking, Index.fresh])
  exact ⟨_, h₁.after (c := .setRunning incumbent.id true) (by cbv)
    fun _ => .handOut (j := incumbent) 20 (of_decide_eq_true (by cbv))⟩

theorem queue_exclusion_heldQueue :
    (∃ log, Handling NoOvertaking .runToCompletion log heldQueue) ∧
      ((∀ now, (heldQueue.busy "Q" now).length ≤ 1) ↔ ¬Overtaken heldQueue "Q") ∧
      ∀ now, (heldQueue.busy "Q" now).length ≤ 1 := by
  obtain ⟨log, h⟩ := exists_handling_heldQueue
  have hany : Handling Anyone .runToCompletion log heldQueue := h.mono fun _ _ _ => trivial
  exact ⟨⟨log, h⟩, (queue_exclusion "Q").1 hany, (queue_exclusion "Q").2 h⟩

/-- The third job displaces the running one, and both are busy at once. -/
theorem busy_of_backdated :
    ∃ log x, Handling Anyone .runToCompletion log x ∧
      ∃ q now, ¬(x.busy q now).length ≤ 1 := by
  obtain ⟨log, h⟩ := exists_handling_heldQueue
  have hany : Handling Anyone .runToCompletion log heldQueue := h.mono fun _ _ _ => trivial
  refine ⟨_, _, hany.after (c := .insert [{ job := backdated }]) (by cbv)
    fun _ => .insert (by decide) (by decide) trivial, "Q", 20, ?_⟩
  have hbusy : ((heldQueue.after (.insert [{ job := backdated }])).busy "Q" 20).length = 2 := by cbv
  omega

end Backlog
