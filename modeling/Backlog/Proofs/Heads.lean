/-
# Queue heads, and what may be handed out

The roster finds the heads of all queues in one pass over its jobs, keeping a table.  This module
says what the pass computes, and from it what may be handed out.

* `earliest?_eq_some_iff`: the earliest of several jobs is strictly earlier than those in front of
  it and no later than those behind it;
* `Discipline.head?`: the head of one queue, without a table; `lookup_heads`: the table has it;
* `Roster.mem_eligible_iff`: a job may be handed out exactly if it is stored, not running and due,
  and either heads the migration queue or, while that is empty, heads its queue and waits on no
  stored job;
* `Roster.head?_of_eligible`: whatever is handed out heads its queue, by whichever way it came;
* `Roster.eligible_eq_oldestFirst`: what may be handed out is a selection of the stored jobs, oldest
  first, and nobody is in it twice (`Roster.nodup_ids_eligible`).
-/
import Backlog.Proofs.Filed
import Backlog.Proofs.JobList
import Backlog.Roster.Eligibility
import Mathlib.Data.List.Nodup

namespace Backlog

/-! ## 1. The earliest of several jobs -/

theorem earlier_of_lt {a b : Job} (h : b.created.toInt < a.created.toInt) : a.earlier b = b := by
  rw [Job.earlier, if_pos (Int64.lt_iff_toInt_lt.mpr h)]

theorem earlier_of_le {a b : Job} (h : a.created.toInt ≤ b.created.toInt) : a.earlier b = a := by
  rw [Job.earlier, if_neg]
  rw [Int64.lt_iff_toInt_lt]
  omega

theorem foldl_earlier_of_le {h : Job} : ∀ {l : List Job},
    (∀ j ∈ l, h.created.toInt ≤ j.created.toInt) → l.foldl Job.earlier h = h
  | [], _ => rfl
  | j :: rest, hle => by
    rw [List.foldl_cons, earlier_of_le (hle j List.mem_cons_self)]
    exact foldl_earlier_of_le fun k hk => hle k (List.mem_cons_of_mem _ hk)

theorem foldl_earlier_of_lt {h : Job} : ∀ {l : List Job} {j : Job},
    (∀ k ∈ j :: l, h.created.toInt < k.created.toInt) →
      (l ++ [h]).foldl Job.earlier j = h
  | [], j, hlt => earlier_of_lt (hlt j List.mem_cons_self)
  | k :: rest, j, hlt => by
    rw [List.cons_append, List.foldl_cons]
    refine foldl_earlier_of_lt fun i hi => ?_
    rcases List.mem_cons.mp hi with rfl | hi
    · unfold Job.earlier
      split
      · exact hlt k (by simp)
      · exact hlt j (by simp)
    · exact hlt i (by simp [hi])

/-- A job with strictly later ones in front of it and no earlier one behind it is the earliest. -/
theorem earliest?_append_cons {l₁ l₂ : List Job} {h : Job}
    (h₁ : ∀ j ∈ l₁, h.created.toInt < j.created.toInt)
    (h₂ : ∀ j ∈ l₂, h.created.toInt ≤ j.created.toInt) :
    earliest? (l₁ ++ h :: l₂) = some h := by
  cases l₁ with
  | nil => rw [List.nil_append, earliest?, foldl_earlier_of_le h₂]
  | cons j l₁ =>
    have hsplit : l₁ ++ h :: l₂ = (l₁ ++ [h]) ++ l₂ := by simp
    rw [List.cons_append, earliest?, hsplit, List.foldl_append, foldl_earlier_of_lt h₁,
      foldl_earlier_of_le h₂]

/-- Every list of jobs has such a job, unless it is empty. -/
theorem exists_earliest : ∀ {l : List Job}, l ≠ [] →
    ∃ l₁ h l₂, l = l₁ ++ h :: l₂ ∧ (∀ j ∈ l₁, h.created.toInt < j.created.toInt) ∧
      ∀ j ∈ l₂, h.created.toInt ≤ j.created.toInt
  | [], hne => absurd rfl hne
  | [j], _ => ⟨[], j, [], rfl, by simp, by simp⟩
  | j :: k :: rest, _ => by
    obtain ⟨l₁, h, l₂, heq, h₁, h₂⟩ := exists_earliest (l := k :: rest) (by simp)
    by_cases hlt : h.created.toInt < j.created.toInt
    · refine ⟨j :: l₁, h, l₂, by rw [heq, List.cons_append], ?_, h₂⟩
      intro i hi
      rcases List.mem_cons.mp hi with rfl | hi
      · exact hlt
      · exact h₁ i hi
    · refine ⟨[], j, k :: rest, rfl, by simp, ?_⟩
      intro i hi
      rw [heq] at hi
      rcases List.mem_append.mp hi with hi | hi
      · have := h₁ i hi
        omega
      · rcases List.mem_cons.mp hi with rfl | hi
        · omega
        · have := h₂ i hi
          omega

theorem earliest?_eq_some_iff {l : List Job} {h : Job} :
    earliest? l = some h ↔
      ∃ l₁ l₂, l = l₁ ++ h :: l₂ ∧ (∀ j ∈ l₁, h.created.toInt < j.created.toInt) ∧
        ∀ j ∈ l₂, h.created.toInt ≤ j.created.toInt := by
  constructor
  · intro he
    have hne : l ≠ [] := by
      rintro rfl
      exact absurd he (by simp [earliest?])
    obtain ⟨l₁, h', l₂, rfl, h₁, h₂⟩ := exists_earliest hne
    rw [earliest?_append_cons h₁ h₂, Option.some.injEq] at he
    exact ⟨l₁, l₂, by rw [he], by rwa [← he], by rwa [← he]⟩
  · rintro ⟨l₁, l₂, rfl, h₁, h₂⟩
    exact earliest?_append_cons h₁ h₂

theorem earliest?_eq_none_iff {l : List Job} : earliest? l = none ↔ l = [] := by
  cases l with
  | nil => simp [earliest?]
  | cons j rest => simp [earliest?]

theorem earliest?_mem {l : List Job} {h : Job} (he : earliest? l = some h) : h ∈ l := by
  obtain ⟨l₁, l₂, rfl, -, -⟩ := earliest?_eq_some_iff.mp he
  simp

theorem earliest?_le {l : List Job} {h : Job} (he : earliest? l = some h) {j : Job} (hj : j ∈ l) :
    h.created.toInt ≤ j.created.toInt := by
  obtain ⟨l₁, l₂, rfl, h₁, h₂⟩ := earliest?_eq_some_iff.mp he
  rcases List.mem_append.mp hj with hj | hj
  · have := h₁ j hj
    omega
  · rcases List.mem_cons.mp hj with rfl | hj
    · exact Int.le_refl _
    · exact h₂ j hj

theorem mem_of_pair_sublist {α : Type} {a b : α} : ∀ {l₁ l₂ : List α}, b ∉ l₂ →
    [a, b].Sublist (l₁ ++ b :: l₂) → a ∈ l₁
  | [], l₂, hb, h => by
    cases h with
    | cons _ h => exact absurd (h.subset (by simp)) hb
    | cons_cons _ h => exact absurd (h.subset (by simp)) hb
  | c :: l₁, l₂, hb, h => by
    cases h with
    | cons _ h => exact List.mem_cons_of_mem _ (mem_of_pair_sublist hb h)
    | cons_cons _ _ => exact List.mem_cons_self

/-- The earliest of several jobs is strictly earlier than those in front of it. -/
theorem lt_of_earliest? {l : List Job} {a b : Job} (hl : l.Nodup) (hab : [a, b].Sublist l)
    (he : earliest? l = some b) : b.created.toInt < a.created.toInt := by
  obtain ⟨l₁, l₂, rfl, h₁, -⟩ := earliest?_eq_some_iff.mp he
  have hb : b ∉ l₂ := (List.nodup_cons.mp (List.nodup_append.mp hl).2.1).1
  exact h₁ a (mem_of_pair_sublist hb hab)

/-- The earliest job stays the earliest when others are taken away. -/
theorem earliest?_filter {l : List Job} {h : Job} {p : Job → Bool} (he : earliest? l = some h)
    (hp : p h = true) : earliest? (l.filter p) = some h := by
  obtain ⟨l₁, l₂, rfl, h₁, h₂⟩ := earliest?_eq_some_iff.mp he
  rw [List.filter_append, List.filter_cons_of_pos hp]
  exact earliest?_append_cons (fun j hj => h₁ j (List.mem_of_mem_filter hj))
    fun j hj => h₂ j (List.mem_of_mem_filter hj)

/-- It stays the earliest when others are added behind it that are no earlier. -/
theorem earliest?_append {l more : List Job} {h : Job} (he : earliest? l = some h)
    (hmore : ∀ j ∈ more, h.created.toInt ≤ j.created.toInt) :
    earliest? (l ++ more) = some h := by
  obtain ⟨l₁, l₂, rfl, h₁, h₂⟩ := earliest?_eq_some_iff.mp he
  rw [List.append_assoc, List.cons_append]
  refine earliest?_append_cons h₁ fun j hj => ?_
  rcases List.mem_append.mp hj with hj | hj
  · exact h₂ j hj
  · exact hmore j hj

/-- It stays the earliest, in its changed form, under changes that keep creation times. -/
theorem earliest?_map {l : List Job} {h : Job} {f : Job → Job}
    (hf : ∀ j, (f j).created = j.created) (he : earliest? l = some h) :
    earliest? (l.map f) = some (f h) := by
  obtain ⟨l₁, l₂, rfl, h₁, h₂⟩ := earliest?_eq_some_iff.mp he
  rw [List.map_append, List.map_cons]
  refine earliest?_append_cons (fun j hj => ?_) fun j hj => ?_
  · obtain ⟨k, hk, rfl⟩ := List.mem_map.mp hj
    rw [hf, hf]
    exact h₁ k hk
  · obtain ⟨k, hk, rfl⟩ := List.mem_map.mp hj
    rw [hf, hf]
    exact h₂ k hk

/-! ## 2. The table of heads -/

theorem lookup_enterHead (q i : String) (j : Job) : ∀ table : List (String × Job),
    (enterHead q j table).lookup i =
      if i = q then some (((table.lookup q).map (·.earlier j)).getD j) else table.lookup i
  | [] => by simp [enterHead, lookup_cons_eq]
  | (q', head) :: rest => by
    have ih := lookup_enterHead q i j rest
    by_cases hq : q' = q
    · subst hq
      by_cases hi : i = q'
      · simp [enterHead, hi]
      · simp [enterHead, hi, lookup_cons_eq]
    · have hq' : ¬q = q' := fun h => hq h.symm
      simp only [enterHead, if_neg hq, lookup_cons_eq, ih, if_neg hq']
      by_cases hi : i = q
      · have hi' : ¬i = q' := by rw [hi]; exact hq'
        simp only [if_pos hi, if_neg hi']
      · simp only [if_neg hi]

/-- The jobs that count as members of a queue, in order. -/
def Discipline.members (d : Discipline) (q : String) (jobs : List Job) : List Job :=
  jobs.filter fun j => j.queue == some q && d.counts j

/-- The head of a queue. -/
def Discipline.head? (d : Discipline) (q : String) (jobs : List Job) : Option Job :=
  earliest? (d.members q jobs)

theorem mem_members {d : Discipline} {q : String} {jobs : List Job} {j : Job} :
    j ∈ d.members q jobs ↔ j ∈ jobs ∧ j.queue = some q ∧ d.counts j = true := by
  simp [Discipline.members]

theorem mem_of_head? {d : Discipline} {q : String} {jobs : List Job} {h : Job}
    (hh : d.head? q jobs = some h) : h ∈ jobs ∧ h.queue = some q ∧ d.counts h = true :=
  mem_members.mp (earliest?_mem hh)

/-- A queue with a member that counts has a head. -/
theorem exists_head? {d : Discipline} {q : String} {jobs : List Job} {j : Job} (hj : j ∈ jobs)
    (hq : j.queue = some q) (hd : d.counts j = true) : ∃ h, d.head? q jobs = some h := by
  cases hh : d.head? q jobs with
  | some h => exact ⟨h, rfl⟩
  | none =>
    have hmem : j ∈ d.members q jobs := mem_members.mpr ⟨hj, hq, hd⟩
    rw [earliest?_eq_none_iff.mp hh] at hmem
    exact absurd hmem (by simp)

/-- No member that counts was created before the head. -/
theorem head?_le {d : Discipline} {q : String} {jobs : List Job} {h j : Job}
    (hh : d.head? q jobs = some h) (hj : j ∈ jobs) (hq : j.queue = some q)
    (hd : d.counts j = true) : h.created.toInt ≤ j.created.toInt :=
  earliest?_le hh (mem_members.mpr ⟨hj, hq, hd⟩)

/-- A member that counts and stands in front of the head was created after it. -/
theorem lt_of_head? {d : Discipline} {q : String} {jobs : List Job} {a b : Job}
    (hu : (jobs.map Job.id).Nodup) (hab : [a, b].Sublist jobs) (hq : a.queue = some q)
    (hd : d.counts a = true) (hh : d.head? q jobs = some b) :
    b.created.toInt < a.created.toInt := by
  obtain ⟨-, hbq, hbd⟩ := mem_of_head? hh
  have hmembers : [a, b].Sublist (d.members q jobs) := by
    have hsub := hab.filter fun j => j.queue == some q && d.counts j
    rwa [List.filter_eq_self.mpr (by simp [hq, hd, hbq, hbd])] at hsub
  exact lt_of_earliest? ((List.Nodup.of_map _ hu).filter _) hmembers hh

namespace Discipline

variable {q : String} {jobs : List Job} {h : Job}

/-- Where running heads keep their place, nothing but the queue decides who is a member. -/
theorem members_runToCompletion (q : String) (jobs : List Job) :
    runToCompletion.members q jobs = jobs.filter (·.queue == some q) :=
  List.filter_congr fun _ _ => Bool.and_true _

theorem head?_append {more : List Job} (hh : runToCompletion.head? q jobs = some h)
    (hmore : ∀ j ∈ more, j.queue = some q → h.created.toInt ≤ j.created.toInt) :
    runToCompletion.head? q (jobs ++ more) = some h := by
  simp only [head?, members_runToCompletion, List.filter_append] at hh ⊢
  refine earliest?_append hh fun j hj => ?_
  obtain ⟨hj, hq⟩ := List.mem_filter.mp hj
  exact hmore j hj (beq_iff_eq.mp hq)

theorem head?_map {f : Job → Job} (hq : ∀ j, (f j).queue = j.queue)
    (hc : ∀ j, (f j).created = j.created) (hh : runToCompletion.head? q jobs = some h) :
    runToCompletion.head? q (jobs.map f) = some (f h) := by
  simp only [head?, members_runToCompletion, List.filter_map] at hh ⊢
  have hp : (fun j : Job => j.queue == some q) ∘ f = fun j => j.queue == some q := by
    funext j
    simp [hq j]
  rw [hp]
  exact earliest?_map hc hh

/-- A head stays the head when others are taken away, whatever the discipline. -/
theorem head?_filter {d : Discipline} {p : Job → Bool} (hh : d.head? q jobs = some h)
    (hp : p h = true) : d.head? q (jobs.filter p) = some h := by
  rw [head?, members, List.filter_comm]
  exact earliest?_filter hh hp

end Discipline

namespace Roster

variable {r : Roster} {d : Discipline}

/-- The pass keeps, for each queue, the earliest of the members that it has seen. -/
theorem lookup_foldl_heads (d : Discipline) (q : String) : ∀ (jobs : List Job)
    (table : List (String × Job)),
    (jobs.foldl (fun table j =>
      match j.queue with
      | some q => if d.counts j then enterHead q j table else table
      | none => table) table).lookup q
      = earliest? ((table.lookup q).toList
          ++ jobs.filter fun j => j.queue == some q && d.counts j)
  | [], table => by cases h : table.lookup q <;> simp [earliest?, h]
  | j :: rest, table => by
    rw [List.foldl_cons, lookup_foldl_heads d q rest]
    by_cases hc : j.queue = some q ∧ d.counts j = true
    · obtain ⟨hq, hd⟩ := hc
      simp only [hq, hd, if_true, lookup_enterHead, List.filter_cons, beq_self_eq_true,
        Bool.and_self]
      cases table.lookup q with
      | none => simp
      | some head => simp [earliest?]
    · have hfilter : (j.queue == some q && d.counts j) = false := by
        rw [Bool.eq_false_iff]
        simpa using hc
      rw [List.filter_cons_of_neg (by simp [hfilter])]
      congr 2
      cases hq : j.queue with
      | none => rfl
      | some q' =>
        by_cases hd : d.counts j = true
        · have hne : ¬q = q' := fun h => hc ⟨by rw [hq, h], hd⟩
          simp [hd, lookup_enterHead, hne]
        · simp [hd]

theorem lookup_heads (r : Roster) (d : Discipline) (q : String) :
    (r.heads d).lookup q = d.head? q r.jobs :=
  (lookup_foldl_heads d q r.jobs []).trans (by simp [Discipline.head?, Discipline.members])

/-! ## 3. What may be handed out -/

theorem isHead_iff {j : Job} :
    isHead (r.heads d) j = true ↔
      ∀ q, j.queue = some q → ∃ head, d.head? q r.jobs = some head ∧ head.id = j.id := by
  unfold isHead
  cases hq : j.queue with
  | none => simp
  | some q => cases hh : d.head? q r.jobs <;> simp [lookup_heads, hh]

theorem mem_eligible_iff {now : Int64} {j : Job} :
    j ∈ r.eligible now d ↔
      j ∈ r.jobs ∧ j.running = false ∧ j.isDue now = true ∧
        (r.migrationHead? = some j ∨
          r.migrationHead? = none ∧ isHead (r.heads d) j = true ∧ r.isBlocked j.id = false) := by
  unfold eligible
  cases hm : r.migrationHead? with
  | some head =>
    have hmem : head ∈ r.jobs := List.mem_of_mem_filter (earliest?_mem hm)
    by_cases hh : head.running = false ∧ head.isDue now = true
    · simp only [hh.1, hh.2, Bool.not_false, Bool.and_self, if_true, List.mem_singleton,
        Option.some.injEq, reduceCtorEq, false_and, or_false]
      constructor
      · rintro rfl
        exact ⟨hmem, hh.1, hh.2, rfl⟩
      · exact fun h => h.2.2.2.symm
    · have hif : (!head.running && head.isDue now) = false := by
        rw [Bool.eq_false_iff]
        simpa using hh
      simp only [hif, Bool.false_eq_true, if_false, List.not_mem_nil, Option.some.injEq,
        reduceCtorEq, false_and, or_false, false_iff]
      rintro ⟨-, hrun, hdue, rfl⟩
      exact hh ⟨hrun, hdue⟩
  | none =>
    simp only [mem_oldestFirst, List.mem_filter, Bool.and_eq_true, Bool.not_eq_true', reduceCtorEq,
      false_or, true_and]
    constructor
    · rintro ⟨hj, ⟨⟨hrun, hhead⟩, hblocked⟩, hdue⟩
      exact ⟨hj, hrun, hdue, hhead, hblocked⟩
    · rintro ⟨hj, hrun, hdue, hhead, hblocked⟩
      exact ⟨hj, ⟨⟨hrun, hhead⟩, hblocked⟩, hdue⟩

/-- The migration queue has its head found without regard to the discipline. -/
theorem migrationHead?_eq :
    r.migrationHead? = Discipline.runToCompletion.head? migrationQueue r.jobs := by
  rw [Discipline.head?, Discipline.members_runToCompletion]
  rfl

/-- Whatever is handed out heads its queue. -/
theorem head?_of_eligible (hu : (r.jobs.map Job.id).Nodup) {now : Int64} {j : Job}
    (hj : j ∈ r.eligible now d) {q : String} (hq : j.queue = some q) :
    d.head? q r.jobs = some j := by
  obtain ⟨hmem, hrun, -, hm | ⟨-, hhead, -⟩⟩ := mem_eligible_iff.mp hj
  · rw [migrationHead?_eq] at hm
    obtain ⟨-, hmq, -⟩ := mem_of_head? hm
    rw [hq, Option.some.injEq] at hmq
    subst hmq
    have hcounts : d.counts j = true := by cases d <;> simp [Discipline.counts, hrun]
    have hsub : d.members migrationQueue r.jobs
        = (Discipline.runToCompletion.members migrationQueue r.jobs).filter d.counts := by
      simp only [Discipline.members, List.filter_filter, Discipline.counts, Bool.and_true]
      exact List.filter_congr fun k _ => Bool.and_comm _ _
    rw [Discipline.head?, hsub]
    exact earliest?_filter hm hcounts
  · obtain ⟨head, hhead, hid⟩ := isHead_iff.mp hhead q hq
    have hmem' : head ∈ r.jobs := (mem_of_head? hhead).1
    rw [hhead, List.inj_on_of_nodup_map hu hmem' hmem hid]

/-- Nothing outside its queue keeps this job: it belongs to the migration queue, or that is empty
and the job waits on no stored one. -/
def Free (r : Roster) (j : Job) : Prop :=
  j.queue = some migrationQueue ∨
    (∀ k ∈ r.jobs, k.queue ≠ some migrationQueue) ∧ r.isBlocked j.id = false

theorem migrationHead?_eq_none_iff :
    r.migrationHead? = none ↔ ∀ k ∈ r.jobs, k.queue ≠ some migrationQueue := by
  rw [migrationHead?_eq, Discipline.head?, earliest?_eq_none_iff,
    Discipline.members_runToCompletion, List.filter_eq_nil_iff]
  simp

/-- A job that may be handed out may be handed out from another roster as well, if it is stored
there and heads what it headed, and if neither the migration queue nor a prerequisite keeps it there
that did not keep it before. -/
theorem mem_eligible_of_eligible (hu : (r.jobs.map Job.id).Nodup) {s : Roster} {now : Int64}
    {j : Job} (hj : j ∈ r.eligible now d) (hmem : j ∈ s.jobs)
    (hheads : ∀ (e : Discipline) q, e.head? q r.jobs = some j → e.head? q s.jobs = some j)
    (hmigration : (∀ k ∈ r.jobs, k.queue ≠ some migrationQueue) →
      ∀ k ∈ s.jobs, k.queue ≠ some migrationQueue)
    (hfree : r.isBlocked j.id = false → s.isBlocked j.id = false) : j ∈ s.eligible now d := by
  obtain ⟨-, hrests, hdue, hway⟩ := mem_eligible_iff.mp hj
  refine mem_eligible_iff.mpr ⟨hmem, hrests, hdue, ?_⟩
  rcases hway with hhead | ⟨hnone, -, hunblocked⟩
  · refine .inl ?_
    rw [migrationHead?_eq] at hhead ⊢
    exact hheads _ _ hhead
  · refine .inr ⟨?_, isHead_iff.mpr fun q hq => ?_, hfree hunblocked⟩
    · rw [migrationHead?_eq_none_iff] at hnone ⊢
      exact hmigration hnone
    · exact ⟨j, hheads d q (head?_of_eligible hu hj hq), rfl⟩

/-- Where running heads keep their place: a job may be handed out exactly if it is stored, rests, is
due and free, and heads its queue, should it belong to one. -/
theorem mem_eligible_runToCompletion_iff (hu : (r.jobs.map Job.id).Nodup) {now : Int64} {j : Job} :
    j ∈ r.eligible now .runToCompletion ↔
      j ∈ r.jobs ∧ j.running = false ∧ j.isDue now = true ∧
        (∀ q, j.queue = some q → Discipline.runToCompletion.head? q r.jobs = some j) ∧
          r.Free j := by
  constructor
  · intro hj
    have hhead : ∀ q, j.queue = some q → Discipline.runToCompletion.head? q r.jobs = some j :=
      fun q hq => head?_of_eligible hu hj hq
    obtain ⟨hmem, hrun, hdue, hm | ⟨hm, -, hblocked⟩⟩ := mem_eligible_iff.mp hj
    · rw [migrationHead?_eq] at hm
      exact ⟨hmem, hrun, hdue, hhead, .inl (mem_of_head? hm).2.1⟩
    · exact ⟨hmem, hrun, hdue, hhead, .inr ⟨migrationHead?_eq_none_iff.mp hm, hblocked⟩⟩
  · rintro ⟨hmem, hrun, hdue, hhead, hq | ⟨hnone, hblocked⟩⟩
    · have hm : r.migrationHead? = some j := migrationHead?_eq.trans (hhead _ hq)
      exact mem_eligible_iff.mpr ⟨hmem, hrun, hdue, .inl hm⟩
    · have hm := migrationHead?_eq_none_iff.mpr hnone
      have hishead : isHead (r.heads .runToCompletion) j = true :=
        isHead_iff.mpr fun q hq => ⟨j, hhead q hq, rfl⟩
      exact mem_eligible_iff.mpr ⟨hmem, hrun, hdue, .inr ⟨hm, hishead, hblocked⟩⟩

/-- What may be handed out is a selection of the stored jobs, sorted by age. -/
theorem eligible_eq_oldestFirst (hu : (r.jobs.map Job.id).Nodup) (now : Int64) (d : Discipline) :
    r.eligible now d = oldestFirst (r.jobs.filter fun j => (r.eligible now d).contains j) := by
  cases hm : r.migrationHead? with
  | some head =>
    have hmem : head ∈ r.jobs := List.mem_of_mem_filter (earliest?_mem hm)
    have hself : r.jobs.filter (· == head) = [head] := by
      rw [List.filter_beq, List.count_eq_one_of_mem (List.Nodup.of_map _ hu) hmem,
        List.replicate_one]
    by_cases hh : (!head.running && head.isDue now) = true
    · simp only [eligible, hm, hh, if_true, List.contains_cons, List.contains_nil, Bool.or_false,
        hself, oldestFirst, List.mergeSort_singleton]
    · simp [eligible, hm, hh, oldestFirst]
  | none =>
    have hsel : r.eligible now d = oldestFirst (r.jobs.filter fun j =>
        !j.running && isHead (r.heads d) j && !r.isBlocked j.id && j.isDue now) := by
      simp only [eligible, hm]
    refine hsel.trans (congrArg _ (List.filter_congr fun j hj => ?_))
    rw [Bool.eq_iff_iff, List.contains_iff_mem, hsel, mem_oldestFirst, List.mem_filter]
    simp [hj]

theorem nodup_eligible (hu : (r.jobs.map Job.id).Nodup) (now : Int64) (d : Discipline) :
    (r.eligible now d).Nodup := by
  rw [eligible_eq_oldestFirst hu now d, (oldestFirst_perm _).nodup_iff]
  exact (List.Nodup.of_map _ hu).filter _

theorem nodup_ids_eligible (hu : (r.jobs.map Job.id).Nodup) (now : Int64) (d : Discipline) :
    ((r.eligible now d).map Job.id).Nodup :=
  (nodup_eligible hu now d).map_on fun _ hj _ hk => List.inj_on_of_nodup_map hu
    (mem_eligible_iff.mp hj).1 (mem_eligible_iff.mp hk).1

end Roster

end Backlog
