/-
# A queue hands its jobs out in the order in which they came

Jobs of one queue stand in the tables in the order in which they were inserted.  If none of them
is created earlier than those it finds in its queue, that is also the order of their ages, and the
head of the queue is the job that came first.  Heads are found in the roster, whose order a restart
changes; it changes nothing among jobs of one age (`Handling.sameOrder`).

* `Standing`, `standings`: what a log says about the jobs that are stored at its end, in the order
  in which they came;
* `Tracks`: the tables hold those jobs in that order, and only jobs that were handed out run;
* `Handling.created_pairwise`: in each queue they also stand in the order of their ages;
* `Handling.fifo`: **whoever is handed out came to its queue before everybody else who is still
  waiting there.**
-/
import Backlog.Proofs.Handling
import Mathlib

namespace Backlog

/-! ## 1. Batches in order -/

/-- No new job is created before one that it finds in its queue, be it stored or in front of it in
the batch. -/
def InOrder (stored new : List Job) : Prop :=
  (∀ s ∈ new, ∀ j ∈ stored, NoLaterInQueue j s) ∧ new.Pairwise NoLaterInQueue

/-- In each queue, the tables hold jobs in the order of their ages. -/
theorem Handling.created_pairwise {d : Discipline} {log : List LogEntry} {x : MemoryIndex}
    (h : Handling InOrder d log x) : x.store.inner.jobs.Pairwise NoLaterInQueue := by
  refine Handling.of_effect (P := fun _ _ t => t.Pairwise NoLaterInQueue) .nil ?_ h
  intro log entries r t r' t' _ hsame ht he
  cases he with
  | enter _ ha =>
    refine List.pairwise_append.mpr ⟨ht, ha.2, fun j hj s hs => ?_⟩
    exact ha.1 s hs j (hsame.mem_iff.mpr hj)
  | start _ _ => exact ht.map _ fun _ _ => (noLaterInQueue_map (startedAt_keepsPlace _)).mpr
  | settle hf _ => exact ht.map _ fun _ _ => (noLaterInQueue_map hf).mpr
  | leave => exact ht.filter _
  | reread => exact ht

/-! ## 2. What a log says about the stored jobs -/

/-- A stored job as a log knows it: the record with which it came, and whether it has been handed
out since. -/
structure Standing where
  job : Job
  handed : Bool

/-- What one more entry says about a job. -/
def Standing.mark (id : JobId) (s : Standing) : Standing :=
  { s with handed := s.handed || s.job.id = id }

def LogEntry.follow (m : List Standing) : LogEntry → List Standing
  | entered j => m ++ [⟨j, false⟩]
  | handedOut id => m.map (·.mark id)
  | gone id => m.filter (·.job.id ≠ id)

/-- The jobs that are stored at the end of a log, in the order in which they came. -/
def standings (log : List LogEntry) : List Standing := log.foldl LogEntry.follow []

theorem standings_append (log entries : List LogEntry) :
    standings (log ++ entries) = entries.foldl LogEntry.follow (standings log) :=
  List.foldl_append

theorem foldl_entered : ∀ (new : List Job) (m : List Standing),
    (new.map LogEntry.entered).foldl LogEntry.follow m = m ++ new.map (⟨·, false⟩)
  | [], m => by simp
  | j :: rest, m => by
    rw [List.map_cons, List.foldl_cons, foldl_entered rest]
    simp [LogEntry.follow]

theorem foldl_gone : ∀ (ids : List JobId) (m : List Standing),
    (ids.map LogEntry.gone).foldl LogEntry.follow m = m.filter fun s => !ids.contains s.job.id
  | [], m => by simp
  | id :: rest, m => by
    rw [List.map_cons, List.foldl_cons, foldl_gone rest, LogEntry.follow, List.filter_filter]
    refine List.filter_congr fun s _ => ?_
    by_cases h : s.job.id = id <;> simp [h]

/-- Whoever stands at the end of a log entered at some point of it, and has not gone since. -/
theorem exists_entered_of_mem_standings {s : Standing} {log : List LogEntry} :
    s ∈ standings log →
      ∃ l₁ l₂ : List LogEntry, log = l₁ ++ .entered s.job :: l₂ ∧ .gone s.job.id ∉ l₂ := by
  induction log using List.reverseRecOn generalizing s with
  | nil => intro hs; simp [standings] at hs
  | append_singleton log e ih =>
    intro hs
    -- an entry that does not remove the job can be put behind what came before it
    have hpast : ∀ {u : Standing}, u ∈ standings log → u.job = s.job → e ≠ .gone s.job.id →
        ∃ l₁ l₂ : List LogEntry, log ++ [e] = l₁ ++ .entered s.job :: l₂ ∧
          .gone s.job.id ∉ l₂ := by
      intro u hu hjob he
      obtain ⟨l₁, l₂, rfl, hgone⟩ := ih hu
      rw [hjob] at hgone
      refine ⟨l₁, l₂ ++ [e], by simp [hjob], fun hmem => ?_⟩
      rcases List.mem_append.mp hmem with hmem | hmem
      · exact hgone hmem
      · exact he (List.mem_singleton.mp hmem).symm
    rw [standings_append, List.foldl_cons, List.foldl_nil] at hs
    cases e with
    | entered j =>
      rcases List.mem_append.mp hs with hs | hs
      · exact hpast hs rfl (by simp)
      · rw [List.mem_singleton.mp hs]
        exact ⟨log, [], rfl, by simp⟩
    | handedOut id =>
      obtain ⟨u, hu, rfl⟩ := List.mem_map.mp hs
      exact hpast hu rfl (by simp)
    | gone id =>
      obtain ⟨hs, hne⟩ := List.mem_filter.mp hs
      refine hpast hs rfl fun heq => ?_
      rw [LogEntry.gone.injEq] at heq
      simp [heq] at hne

/-- The job at a later point of the log, if it is not gone by then. -/
def Standing.past (entries : List LogEntry) (s : Standing) : Standing :=
  { s with handed := s.handed || entries.contains (.handedOut s.job.id) }

/-- Jobs that are not gone are still there later on, in the same order. -/
theorem sublist_foldl_follow : ∀ (entries : List LogEntry) {m n : List Standing}, m.Sublist n →
    (∀ s ∈ m, .gone s.job.id ∉ entries) →
      (m.map (·.past entries)).Sublist (entries.foldl LogEntry.follow n)
  | [], m, n, h, _ => by simpa [Standing.past] using h
  | e :: rest, m, n, h, hgone => by
    have hrest : ∀ s ∈ m, .gone s.job.id ∉ rest := fun s hs hmem =>
      hgone s hs (List.mem_cons_of_mem _ hmem)
    rw [List.foldl_cons]
    cases e with
    | entered j =>
      have hpast : m.map (·.past (.entered j :: rest)) = m.map (·.past rest) := by
        simp [Standing.past]
      rw [hpast]
      exact sublist_foldl_follow rest (h.trans (List.sublist_append_left _ _)) hrest
    | handedOut id =>
      have hpast : m.map (·.past (.handedOut id :: rest))
          = (m.map (·.mark id)).map (·.past rest) := by
        rw [List.map_map]
        refine List.map_congr_left fun s _ => ?_
        simp [Standing.past, Standing.mark, Bool.or_assoc]
      rw [hpast]
      refine sublist_foldl_follow rest (h.map _) fun s hs => ?_
      obtain ⟨u, hu, rfl⟩ := List.mem_map.mp hs
      exact hrest u hu
    | gone id =>
      have hself : m.filter (·.job.id ≠ id) = m := by
        refine List.filter_eq_self.mpr fun s hs => ?_
        have hne : s.job.id ≠ id := by
          rintro rfl
          exact hgone s hs List.mem_cons_self
        simpa using hne
      have hpast : m.map (·.past (.gone id :: rest)) = m.map (·.past rest) := by
        simp [Standing.past]
      have hsub := h.filter (·.job.id ≠ id)
      rw [hself] at hsub
      rw [hpast]
      exact sublist_foldl_follow rest hsub hrest

/-! ## 3. The tables follow the log -/

/-- A stored record has kept its place since it came, and it runs only if it was handed out. -/
structure Tracks (j : Job) (s : Standing) : Prop where
  id : j.id = s.job.id
  queue : j.queue = s.job.queue
  created : j.created = s.job.created
  handed : j.running = true → s.handed = true

theorem Handling.tracks {admits : List Job → List Job → Prop} {d : Discipline}
    {log : List LogEntry} {x : MemoryIndex} (h : Handling admits d log x) :
    List.Forall₂ Tracks x.store.inner.jobs (standings log) := by
  refine Handling.of_effect (P := fun log _ t => List.Forall₂ Tracks t (standings log)) .nil ?_ h
  intro log entries r t r' t' _ _ ht he
  rw [standings_append]
  cases he with
  | @enter _ _ new hnew _ =>
    rw [foldl_entered]
    refine List.rel_append ht ?_
    rw [List.forall₂_map_right_iff, List.forall₂_same]
    exact fun j hj => ⟨rfl, rfl, rfl, fun hrun => absurd (hnew j hj ▸ hrun) (by simp)⟩
  | @start _ _ j hj _ =>
    show List.Forall₂ Tracks _ ((standings log).map (·.mark j.id))
    have hkeep := startedAt_keepsPlace j.id
    rw [List.forall₂_map_left_iff, List.forall₂_map_right_iff]
    refine ht.imp fun k s hks => ⟨?_, ?_, ?_, fun hrun => ?_⟩
    · exact (hkeep.id k).trans hks.id
    · exact (hkeep.queue k).trans hks.queue
    · exact (hkeep.created k).trans hks.created
    · rcases running_of_startedAt hrun with hk | hrun
      · simp [Standing.mark, ← hks.id, hk]
      · simp [Standing.mark, hks.handed hrun]
  | @settle _ _ f hf hrun =>
    rw [List.forall₂_map_left_iff]
    exact ht.imp fun k s hks => ⟨(hf.id k).trans hks.id, (hf.queue k).trans hks.queue,
      (hf.created k).trans hks.created, fun h => hks.handed (hrun k h)⟩
  | leave =>
    rw [foldl_gone]
    exact List.rel_filter (fun k s hks => by simp only [hks.id]) ht
  | reread => exact ht

theorem exists_sublist_of_forall₂ {α β : Type} {R : α → β → Prop} {l : List α} {m n : List β}
    (h : m.Sublist n) (hl : List.Forall₂ R l n) : ∃ l', l'.Sublist l ∧ List.Forall₂ R l' m := by
  induction h generalizing l with
  | slnil => exact ⟨[], List.nil_sublist _, .nil⟩
  | cons b _ ih =>
    cases hl with
    | cons _ hrest =>
      obtain ⟨l', hsub, hl'⟩ := ih hrest
      exact ⟨l', hsub.cons _, hl'⟩
  | cons_cons b _ ih =>
    cases hl with
    | cons hab hrest =>
      obtain ⟨l', hsub, hl'⟩ := ih hrest
      exact ⟨_ :: l', hsub.cons_cons _, .cons hab hl'⟩

theorem exists_mem_of_forall₂ {α β : Type} {R : α → β → Prop} {l : List α} {m : List β}
    (h : List.Forall₂ R l m) {a : α} (ha : a ∈ l) : ∃ b ∈ m, R a b := by
  obtain ⟨m', hsub, hm'⟩ := exists_sublist_of_forall₂ (List.singleton_sublist.mpr ha) h.flip
  obtain ⟨b, _, hab, -, rfl⟩ := List.forall₂_cons_right_iff.mp hm'
  exact ⟨b, hsub.subset List.mem_cons_self, hab⟩

/-! ## 4. First come, first served -/

/-- Two jobs that are not gone stand in the order in which they came. -/
theorem pair_sublist_standings {m₁ m₂ k₂ : List LogEntry} {a b : Job}
    (ha : .gone a.id ∉ m₂ ++ k₂) (hb : .gone b.id ∉ k₂) :
    [Standing.past (m₂ ++ k₂) ⟨a, false⟩, Standing.past k₂ ⟨b, false⟩].Sublist
      (standings ((m₁ ++ .entered a :: m₂) ++ .entered b :: k₂)) := by
  rw [List.mem_append, not_or] at ha
  have hfirst : [Standing.past m₂ ⟨a, false⟩].Sublist (standings (m₁ ++ .entered a :: m₂)) := by
    rw [standings_append, List.foldl_cons]
    refine sublist_foldl_follow m₂ (m := [⟨a, false⟩]) (List.sublist_append_right _ _) ?_
    simpa using ha.1
  have hboth : [Standing.past m₂ ⟨a, false⟩, ⟨b, false⟩].Sublist
      (LogEntry.follow (standings (m₁ ++ .entered a :: m₂)) (.entered b)) :=
    hfirst.append (List.Sublist.refl [Standing.mk b false])
  have hstay : LogEntry.gone a.id ∉ k₂ ∧ LogEntry.gone b.id ∉ k₂ := ⟨ha.2, hb⟩
  have hlater := sublist_foldl_follow k₂ hboth (by simpa [Standing.past] using hstay)
  rw [standings_append, List.foldl_cons]
  simpa [Standing.past] using hlater

/-- **First come, first served.**  A job `b` that is handed out has entered the run, and is not
gone since.  Every job `a` that had entered the same queue before it is gone by then; where a head
may be followed while it runs (`pipelined`), it is enough that `a` was handed out. -/
theorem Handling.fifo {d : Discipline} {l₁ l₂ : List LogEntry} {id : JobId} {x : MemoryIndex}
    (h : Handling InOrder d (l₁ ++ .handedOut id :: l₂) x) :
    ∃ (k₁ : List LogEntry) (b : Job) (k₂ : List LogEntry),
      l₁ = k₁ ++ .entered b :: k₂ ∧ b.id = id ∧ .gone id ∉ k₂ ∧
        ∀ (q : String) (m₁ m₂ : List LogEntry) (a : Job), b.queue = some q →
          k₁ = m₁ ++ .entered a :: m₂ → a.queue = some q →
            .gone a.id ∈ m₂ ++ k₂ ∨ d = .pipelined ∧ .handedOut a.id ∈ m₂ ++ k₂ := by
  obtain ⟨y, now, j, hy, hj, rfl⟩ := h.exists_handOut rfl
  have hjmem : j ∈ y.store.inner.jobs := hy.inStep.mem_iff.mp (Roster.mem_eligible_iff.mp hj).1
  obtain ⟨s, hs, hjs⟩ := exists_mem_of_forall₂ hy.tracks hjmem
  obtain ⟨k₁, k₂, rfl, hgone⟩ := exists_entered_of_mem_standings hs
  refine ⟨k₁, s.job, k₂, rfl, hjs.id.symm, hjs.id ▸ hgone, ?_⟩
  rintro q m₁ m₂ a hbq rfl haq
  by_cases ha : .gone a.id ∈ m₂ ++ k₂
  · exact .inl ha
  refine .inr ?_
  -- the records of `a` and `b` in the tables, in this order
  obtain ⟨l, hsub, hl⟩ := exists_sublist_of_forall₂ (pair_sublist_standings ha hgone) hy.tracks
  obtain ⟨ja, _, hja, hrest, rfl⟩ := List.forall₂_cons_right_iff.mp hl
  obtain ⟨jb, _, hjb, hnil, rfl⟩ := List.forall₂_cons_right_iff.mp hrest
  obtain rfl := List.forall₂_nil_right_iff.mp hnil
  have hbj : jb = j :=
    List.inj_on_of_nodup_map hy.inStep.tables_unique (hsub.subset (by simp)) hjmem
      (hjb.id.trans hjs.id.symm)
  subst hbj
  have haq' : ja.queue = some q := hja.queue.trans haq
  have hjq : jb.queue = some q := hjs.queue.trans hbq
  have hhead : d.head? q y.store.inner.jobs = some jb := by
    rw [← hy.head?_tables, ← hy.discipline]
    exact Roster.head?_of_eligible hy.inStep.roster_unique hj hjq
  have hage : ja.created.toInt ≤ jb.created.toInt := by
    have hpair := hy.created_pairwise.sublist hsub
    exact List.rel_of_pairwise_cons hpair (by simp) q haq' hjq
  -- a job that stands in front of the head and is no later does not count
  have hcounts : d.counts ja = false := by
    rw [Bool.eq_false_iff]
    intro hc
    have hlt := lt_of_head? hy.inStep.tables_unique hsub haq' hc hhead
    omega
  cases d with
  | runToCompletion => exact absurd hcounts (by simp [Discipline.counts])
  | pipelined =>
    have hhanded := hja.handed (by simpa [Discipline.counts] using hcounts)
    exact ⟨rfl, by simpa [Standing.past] using hhanded⟩

/-- Two jobs that enter a queue together, created at the same time. -/
def elder : Job := { id := ⟨"elder"⟩, factory := "http", queue := some "Q", created := 5 }

def younger : Job := { elder with id := ⟨"younger"⟩ }

def twinLog : List LogEntry :=
  [.entered elder, .entered younger, .handedOut elder.id, .handedOut elder.id, .gone elder.id]

/-- The first of them fails once, and a restart comes before its second attempt. -/
theorem exists_handling_twinLog :
    ∃ x, Handling InOrder .runToCompletion (twinLog ++ [LogEntry.handedOut younger.id]) x := by
  have hage : NoLaterInQueue elder younger := fun _ _ _ => by decide
  have h₀ : Handling InOrder .runToCompletion [] (.fresh _) := .fresh
  have h₁ := h₀.after (c := .insert [{ job := elder }, { job := younger }]) (by cbv)
    fun _ => .insert (by decide) (by decide) (by simp [InOrder, Index.fresh, hage])
  have h₂ := h₁.after (c := .setRunning elder.id true) (by cbv)
    fun _ => .handOut (j := elder) 10 (of_decide_eq_true (by cbv))
  have h₃ := h₂.after (c := .reschedule elder.id false 1 20 .empty) (by cbv) fun _ => .retry
  have h₄ := h₃.after (c := .reopen .runToCompletion) (by cbv) fun _ => .reopen
  have h₅ := h₄.after (c := .clearRunning) (by cbv) fun _ => .clearRunning
  have h₆ := h₅.after (c := .setRunning elder.id true) (by cbv)
    fun _ => .handOut (j := { elder with attempt := 1, due := 20 }) 20
      (of_decide_eq_true (by cbv))
  have h₇ := h₆.after (c := .delete [elder.id]) (by cbv)
    fun _ => .delete (of_decide_eq_true (by cbv))
  exact ⟨_, h₇.after (c := .setRunning younger.id true) (by cbv)
    fun _ => .handOut (j := younger) 20 (of_decide_eq_true (by cbv))⟩

theorem Handling.fifo_twinLog :
    (∃ x, Handling InOrder .runToCompletion (twinLog ++ [LogEntry.handedOut younger.id]) x) ∧
      ∃ (k₁ : List LogEntry) (b : Job) (k₂ : List LogEntry),
        twinLog = k₁ ++ .entered b :: k₂ ∧ b.id = younger.id ∧ .gone younger.id ∉ k₂ ∧
          ∀ (q : String) (m₁ m₂ : List LogEntry) (a : Job), b.queue = some q →
            k₁ = m₁ ++ .entered a :: m₂ → a.queue = some q →
              .gone a.id ∈ m₂ ++ k₂ ∨
                Discipline.runToCompletion = .pipelined ∧ .handedOut a.id ∈ m₂ ++ k₂ := by
  obtain ⟨x, h⟩ := exists_handling_twinLog
  exact ⟨⟨x, h⟩, Handling.fifo h⟩

end Backlog
