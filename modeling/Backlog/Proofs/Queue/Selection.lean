/-
# The jobs that may be handed out, described without a search

The roster looks for queue heads with a table, tests each job for four things, and sorts what is
left.  Here the same jobs are described by what they are, and in the order in which they come:

* `Foremost`: the first of the jobs created earliest among those with some property, read off the
  rows as they stand (`earliest?_filter_eq_some_iff`: that is what a search over them finds);
* `Ready`: a job that rests, is due, waits on no stored job, and is foremost in its queue;
* `InRowOrder`: oldest first, and jobs created together as they stand in the rows;
* `Selection`: all of this for a whole list.  The head of the migration queue alone while that queue
  has a member, and else the ready jobs, in row order, each once.

A roster in which no id occurs twice has exactly one such list, and it is the one that is handed out
(`eligible_eq_iff_selection`).  Nothing is said about a roster with an id that occurs twice: there
a job counts as the head of its queue if it shares its id with the head.
-/
import Backlog.Proofs.Order
import Mathlib

namespace Backlog

/-! ## 1. The foremost of some jobs -/

/-- Of the jobs that satisfy `P`, none was created before `h`, and those in front of it were created
after it. -/
def Foremost (jobs : List Job) (P : Job → Prop) (h : Job) : Prop :=
  P h ∧ ∃ before after, jobs = before ++ h :: after ∧
    (∀ j ∈ before, P j → h.created.toInt < j.created.toInt) ∧
      ∀ j ∈ after, P j → h.created.toInt ≤ j.created.toInt

theorem Foremost.mem {jobs : List Job} {P : Job → Prop} {h : Job} (hh : Foremost jobs P h) :
    h ∈ jobs := by
  obtain ⟨-, before, after, rfl, -, -⟩ := hh
  exact List.mem_append_right _ List.mem_cons_self

theorem Foremost.congr {jobs : List Job} {P Q : Job → Prop} (hPQ : ∀ j, P j ↔ Q j) {h : Job} :
    Foremost jobs P h ↔ Foremost jobs Q h := by
  obtain rfl : P = Q := funext fun j => propext (hPQ j)
  exact Iff.rfl

/-- A search over the jobs that pass a test finds the foremost of them. -/
theorem earliest?_filter_eq_some_iff {jobs : List Job} {p : Job → Bool} {h : Job} :
    earliest? (jobs.filter p) = some h ↔ Foremost jobs (fun j => p j = true) h := by
  rw [earliest?_eq_some_iff]
  constructor
  · rintro ⟨l₁, l₂, hsplit, h₁, h₂⟩
    obtain ⟨before, rest, rfl, rfl, hrest⟩ := List.filter_eq_append_iff.mp hsplit
    obtain ⟨skipped, after, rfl, hskipped, hp, rfl⟩ := List.filter_eq_cons_iff.mp hrest
    refine ⟨hp, before ++ skipped, after, by rw [List.append_assoc], ?_, ?_⟩
    · intro j hj hpj
      rcases List.mem_append.mp hj with hj | hj
      · exact h₁ j (List.mem_filter.mpr ⟨hj, hpj⟩)
      · exact absurd hpj (hskipped j hj)
    · intro j hj hpj
      exact h₂ j (List.mem_filter.mpr ⟨hj, hpj⟩)
  · rintro ⟨hp, before, after, rfl, h₁, h₂⟩
    refine ⟨before.filter p, after.filter p, ?_, ?_, ?_⟩
    · rw [List.filter_append, List.filter_cons_of_pos hp]
    · intro j hj
      obtain ⟨hj, hpj⟩ := List.mem_filter.mp hj
      exact h₁ j hj hpj
    · intro j hj
      obtain ⟨hj, hpj⟩ := List.mem_filter.mp hj
      exact h₂ j hj hpj

/-! ## 2. What is handed out, as a description -/

/-- `j` counts when the head of the queue is looked for: everybody in it does where a running head
keeps its place, and everybody in it that rests where it does not. -/
def Discipline.Admits (d : Discipline) (q : String) (j : Job) : Prop :=
  j.queue = some q ∧ (d = .pipelined → j.running = false)

/-- `j` may be handed out at `now` while the migration queue is empty. -/
structure Ready (r : Roster) (now : Int64) (d : Discipline) (j : Job) : Prop where
  stored : j ∈ r.jobs
  rests : j.running = false
  due : j.due.toInt ≤ now.toInt
  /-- No row filed under the job names a stored one. -/
  free : ∀ e ∈ r.edges.rowsOf j.id, ∀ k ∈ r.jobs, k.id ≠ e.waitsOn
  first : ∀ q, j.queue = some q → Foremost r.jobs (d.Admits q) j

/-- Oldest first; jobs created together in the order of the rows. -/
def InRowOrder (rows l : List Job) : Prop :=
  l.Pairwise fun a b =>
    a.created.toInt < b.created.toInt ∨ a.created = b.created ∧ [a, b].Sublist rows

/-- What is to be handed out at `now`. -/
structure Selection (r : Roster) (now : Int64) (d : Discipline) (l : List Job) : Prop where
  migrating : (∃ j ∈ r.jobs, j.queue = some migrationQueue) →
    ∃ h, Foremost r.jobs (fun j => j.queue = some migrationQueue) h ∧
      (h.running = false ∧ h.due.toInt ≤ now.toInt → l = [h]) ∧
      (¬(h.running = false ∧ h.due.toInt ≤ now.toInt) → l = [])
  ordinary : (∀ j ∈ r.jobs, j.queue ≠ some migrationQueue) →
    (∀ j, j ∈ l ↔ Ready r now d j) ∧ InRowOrder r.jobs l ∧ l.Nodup

/-! ## 3. The search finds what is described -/

theorem head?_eq_some_iff_foremost {d : Discipline} {q : String} {jobs : List Job} {h : Job} :
    d.head? q jobs = some h ↔ Foremost jobs (d.Admits q) h := by
  refine earliest?_filter_eq_some_iff.trans (Foremost.congr fun j => ?_)
  cases d <;> simp [Discipline.Admits, Discipline.counts]

namespace Roster

variable {r : Roster} {now : Int64} {d : Discipline} {l : List Job}

theorem migrationHead?_eq_some_iff {h : Job} :
    r.migrationHead? = some h ↔
      Foremost r.jobs (fun j => j.queue = some migrationQueue) h := by
  refine earliest?_filter_eq_some_iff.trans (Foremost.congr fun j => ?_)
  simp [Job.isMigration]

theorem isBlocked_eq_false_iff_free {id : JobId} :
    r.isBlocked id = false ↔ ∀ e ∈ r.edges.rowsOf id, ∀ k ∈ r.jobs, k.id ≠ e.waitsOn := by
  simp [isBlocked]

/-- With no id twice, sharing the id of the head is being the head. -/
theorem isHead_iff_first (hu : (r.jobs.map Job.id).Nodup) {j : Job} (hj : j ∈ r.jobs) :
    isHead (r.heads d) j = true ↔
      ∀ q, j.queue = some q → Foremost r.jobs (d.Admits q) j := by
  rw [isHead_iff]
  constructor
  · intro h q hq
    obtain ⟨head, hhead, hid⟩ := h q hq
    have hmem : head ∈ r.jobs := (mem_of_head? hhead).1
    obtain rfl : head = j := List.inj_on_of_nodup_map hu hmem hj hid
    exact head?_eq_some_iff_foremost.mp hhead
  · intro h q hq
    exact ⟨j, head?_eq_some_iff_foremost.mpr (h q hq), rfl⟩

theorem mem_eligible_iff_ready (hu : (r.jobs.map Job.id).Nodup) (hm : r.migrationHead? = none)
    {j : Job} : j ∈ r.eligible now d ↔ Ready r now d j := by
  rw [mem_eligible_iff, hm, isBlocked_eq_false_iff_free, Job.isDue_iff]
  constructor
  · rintro ⟨hj, hrests, hdue, hhead | ⟨-, hhead, hfree⟩⟩
    · cases hhead
    · exact ⟨hj, hrests, hdue, hfree, (isHead_iff_first hu hj).mp hhead⟩
  · intro h
    have hhead : isHead (r.heads d) j = true := (isHead_iff_first hu h.stored).mpr h.first
    exact ⟨h.stored, h.rests, h.due, .inr ⟨rfl, hhead, h.free⟩⟩

/-- Sorting by age leaves jobs created together as they stood. -/
theorem eligible_inRowOrder (hu : (r.jobs.map Job.id).Nodup) :
    InRowOrder r.jobs (r.eligible now d) := by
  rw [eligible_eq_oldestFirst hu, InRowOrder, List.pairwise_iff_forall_sublist]
  intro a b hab
  have hle := List.pairwise_iff_forall_sublist.mp (oldestFirst_pairwise _) hab
  by_cases hage : a.created = b.created
  · have hrows := (oldestFirst_sameOrder _).pair_sublist hage hab
    exact .inr ⟨hage, hrows.trans List.filter_sublist⟩
  · have hne : a.created.toInt ≠ b.created.toInt := fun h => hage (Int64.toInt_inj.mp h)
    exact .inl (by omega)

theorem eligible_selection (hu : (r.jobs.map Job.id).Nodup) :
    Selection r now d (r.eligible now d) where
  migrating := by
    rintro ⟨j, hj, hq⟩
    cases hm : r.migrationHead? with
    | none => exact absurd hq (migrationHead?_eq_none_iff.mp hm j hj)
    | some h =>
      refine ⟨h, migrationHead?_eq_some_iff.mp hm, ?_, ?_⟩
      · rintro ⟨hrests, hdue⟩
        simp [eligible, hm, hrests, (h.isDue_iff now).mpr hdue]
      · intro hnot
        have hstays : (!h.running && h.isDue now) = false := by
          rw [Bool.eq_false_iff, ne_eq, Bool.and_eq_true, Bool.not_eq_true', Job.isDue_iff]
          exact hnot
        simp [eligible, hm, hstays]
  ordinary := by
    intro hnone
    have hm : r.migrationHead? = none := migrationHead?_eq_none_iff.mpr hnone
    exact ⟨fun j => mem_eligible_iff_ready hu hm, eligible_inRowOrder hu, nodup_eligible hu now d⟩

end Roster

/-! ## 4. There is only one selection -/

theorem Foremost.unique {jobs : List Job} {P : Job → Prop} [DecidablePred P] {h h' : Job}
    (hh : Foremost jobs P h) (hh' : Foremost jobs P h') : h = h' := by
  have hfind : ∀ {k}, Foremost jobs P k → earliest? (jobs.filter fun j => decide (P j)) = some k :=
    fun hk => earliest?_filter_eq_some_iff.mpr ((Foremost.congr fun j => decide_eq_true_iff).mpr hk)
  exact Option.some.inj ((hfind hh).symm.trans (hfind hh'))

/-- Two lists of the same jobs in row order are the same list: jobs created at different times
cannot change places, and those created together are held by the rows. -/
theorem InRowOrder.eq_of_perm {rows l l' : List Job} (hrows : rows.Nodup) (h : InRowOrder rows l)
    (h' : InRowOrder rows l') (hp : l.Perm l') : l = l' := by
  refine List.Perm.eq_of_pairwise ?_ h h' hp
  rintro a b - - (hlt | ⟨hage, hab⟩) (hlt' | ⟨hage', hba⟩)
  · omega
  · rw [hage'] at hlt
    omega
  · rw [hage] at hlt'
    omega
  · by_contra hne
    exact not_pair_sublist_swap hne hrows hab hba

theorem Selection.unique {r : Roster} (hu : (r.jobs.map Job.id).Nodup) {now : Int64}
    {d : Discipline} {l l' : List Job} (h : Selection r now d l) (h' : Selection r now d l') :
    l = l' := by
  by_cases hm : ∃ j ∈ r.jobs, j.queue = some migrationQueue
  · obtain ⟨head, hhead, hout, hstay⟩ := h.migrating hm
    obtain ⟨head', hhead', hout', hstay'⟩ := h'.migrating hm
    obtain rfl : head = head' := hhead.unique hhead'
    by_cases hgo : head.running = false ∧ head.due.toInt ≤ now.toInt
    · rw [hout hgo, hout' hgo]
    · rw [hstay hgo, hstay' hgo]
  · have hnone : ∀ j ∈ r.jobs, j.queue ≠ some migrationQueue := by
      intro j hj hq
      exact hm ⟨j, hj, hq⟩
    obtain ⟨hmem, hsorted, hnodup⟩ := h.ordinary hnone
    obtain ⟨hmem', hsorted', hnodup'⟩ := h'.ordinary hnone
    have hperm : l.Perm l' := by
      rw [List.perm_ext_iff_of_nodup hnodup hnodup']
      intro j
      rw [hmem, hmem']
    exact hsorted.eq_of_perm (List.Nodup.of_map _ hu) hsorted' hperm

/-- **What may be handed out is what the description says, and nothing else.**  This holds of every
roster in which no id occurs twice, at every time and under either discipline. -/
theorem eligible_eq_iff_selection {r : Roster} (hu : (r.jobs.map Job.id).Nodup) (now : Int64)
    (d : Discipline) (l : List Job) : r.eligible now d = l ↔ Selection r now d l := by
  constructor
  · rintro rfl
    exact Roster.eligible_selection hu
  · intro h
    exact (Roster.eligible_selection hu).unique hu h

/-- A queue whose head runs, with two jobs behind it that were created together, a job that waits on
the first of them, and one that waits on a job that is not there. -/
def busyRoster : Roster :=
  let first : Job := { id := ⟨"first"⟩, factory := "http", queue := some "Q", created := 3 }
  { jobs := [first, { first with id := ⟨"second"⟩ },
      { first with id := ⟨"head"⟩, created := 1, running := true },
      { first with id := ⟨"held"⟩, queue := none, created := 2 },
      { first with id := ⟨"dormant"⟩, queue := none, created := 3 }]
    edges := Filed.byKey Edge.job [⟨⟨"held"⟩, first.id⟩, ⟨⟨"dormant"⟩, ⟨"absent"⟩⟩] }

theorem selection_busyRoster :
    (busyRoster.jobs.map Job.id).Nodup ∧
      (busyRoster.eligible 10 .pipelined).map Job.id = [⟨"first"⟩, ⟨"dormant"⟩] ∧
      Selection busyRoster 10 .pipelined (busyRoster.eligible 10 .pipelined) := by
  have hu : (busyRoster.jobs.map Job.id).Nodup := by decide
  exact ⟨hu, by cbv, (eligible_eq_iff_selection hu 10 .pipelined _).mp rfl⟩

end Backlog
