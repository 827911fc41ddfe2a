/-
# In which order the dependents of a job are found

The search for whoever waits on a job proceeds in rounds.  A round begins with the jobs that were
seen for the first time in the round before, and collects every row that waits on one of them.  So
after as many rounds as the shortest way to a job has rows, that job is begun with, once and never
again, however often ways part and meet or lead back to where the search began.

* `Roster.Way`, `Roster.Away`: a way of so many rows from one job to another, and a shortest one;
* `Roster.Frontier`: what is known when a round begins, and `Frontier.next`: that it is known again
  when the next one does;
* `Roster.Behind`: the rows behind a job, each as often as it is filed, sorted by the shortest way
  and then by their jobs, and `Behind.unique`: there is no other such list;
* `Roster.edgesInto_of_perm`: a round collects the same, whatever the order in which it comes across
  the rows of different jobs;
* `Roster.search?`: the rounds themselves, each of which goes through the rows in an order of its
  own, with nothing else to end them than that nobody is seen for the first time;
* `dependents_exact`: **the dependents that are found are the rows behind the job, and the rounds
  come to an end with them.**
-/
import Backlog.Proofs.Graph.Acyclic
import Backlog.Proofs.Graph.Dependents
import Backlog.Proofs.Order
import Mathlib

namespace Backlog

open Relation

namespace Roster

variable {r : Roster} {id a b : JobId} {m n : Nat} {e : Edge}

/-! ## 1. Ways -/

/-- There is a way of so many rows from a job to `id`. -/
def Way (r : Roster) (id : JobId) : Nat → JobId → Prop
  | 0, a => a = id
  | n + 1, a => ∃ e ∈ r.edges.all, e.job = a ∧ r.Way id n e.waitsOn

instance decidableWay (r : Roster) (id : JobId) : ∀ n a, Decidable (r.Way id n a)
  | 0, a => inferInstanceAs (Decidable (a = id))
  | n + 1, a =>
    have : ∀ b, Decidable (r.Way id n b) := decidableWay r id n
    inferInstanceAs (Decidable (∃ e ∈ r.edges.all, e.job = a ∧ r.Way id n e.waitsOn))

/-- The shortest way from a job to `id` has so many rows. -/
def Away (r : Roster) (id : JobId) (n : Nat) (a : JobId) : Prop :=
  r.Way id n a ∧ ∀ m < n, ¬r.Way id m a

instance (r : Roster) (id : JobId) (n : Nat) (a : JobId) : Decidable (r.Away id n a) :=
  inferInstanceAs (Decidable (_ ∧ ∀ m < n, ¬_))

theorem exists_way_iff : (∃ n, r.Way id n a) ↔ ReflTransGen r.Names a id := by
  constructor
  · rintro ⟨n, h⟩
    induction n generalizing a with
    | zero =>
      obtain rfl : a = id := h
      exact .refl
    | succ n ih =>
      obtain ⟨e, he, rfl, hway⟩ := h
      exact .head he (ih hway)
  · intro h
    induction h using ReflTransGen.head_induction_on with
    | refl => exact ⟨0, rfl⟩
    | @head a b hab _ ih =>
      obtain ⟨n, hway⟩ := ih
      exact ⟨n + 1, ⟨a, b⟩, hab, rfl, hway⟩

theorem Way.exists_away (h : r.Way id n a) : ∃ m ≤ n, r.Away id m a := by
  induction n using Nat.strongRecOn with
  | ind n ih =>
    by_cases hshorter : ∃ m < n, r.Way id m a
    · obtain ⟨m, hm, hway⟩ := hshorter
      obtain ⟨k, hk, haway⟩ := ih m hm hway
      exact ⟨k, by omega, haway⟩
    · exact ⟨n, Nat.le_refl n, h, fun m hm hway => hshorter ⟨m, hm, hway⟩⟩

theorem exists_away_iff : (∃ n, r.Away id n a) ↔ ReflTransGen r.Names a id := by
  rw [← exists_way_iff]
  constructor
  · rintro ⟨n, h⟩
    exact ⟨n, h.1⟩
  · rintro ⟨n, h⟩
    obtain ⟨m, -, haway⟩ := h.exists_away
    exact ⟨m, haway⟩

theorem Away.unique (h : r.Away id m a) (h' : r.Away id n a) : m = n := by
  rcases Nat.lt_trichotomy m n with hlt | heq | hlt
  · exact absurd h.1 (h'.2 m hlt)
  · exact heq
  · exact absurd h'.1 (h.2 n hlt)

theorem away_zero : r.Away id 0 a ↔ a = id :=
  ⟨fun h => h.1, fun h => ⟨h, fun _ hm => absurd hm (Nat.not_lt_zero _)⟩⟩

/-- A job is one row further away than the closest of those on which it waits. -/
theorem away_succ :
    r.Away id (n + 1) a ↔ (∃ e ∈ r.edges.all, e.job = a ∧ r.Away id n e.waitsOn) ∧
      ∀ m ≤ n, ¬r.Away id m a := by
  constructor
  · rintro ⟨⟨e, he, rfl, hway⟩, hshortest⟩
    have hclose : ∀ m ≤ n, ¬r.Away id m e.job := fun m hm h => hshortest m (by omega) h.1
    obtain ⟨m, hm, haway⟩ := hway.exists_away
    obtain rfl : m = n := by
      by_contra hne
      exact hshortest (m + 1) (by omega) ⟨e, he, rfl, haway.1⟩
    exact ⟨⟨e, he, rfl, haway⟩, hclose⟩
  · rintro ⟨⟨e, he, rfl, haway⟩, hclose⟩
    refine ⟨⟨e, he, rfl, haway.1⟩, fun m hm hway => ?_⟩
    obtain ⟨k, hk, hjob⟩ := hway.exists_away
    exact hclose k (by omega) hjob

/-- If somebody is away further than that, then somebody is exactly so far away. -/
theorem Away.exists_of_le (h : r.Away id m a) (hn : n ≤ m) : ∃ b, r.Away id n b := by
  induction m generalizing a with
  | zero =>
    obtain rfl : n = 0 := by omega
    exact ⟨a, h⟩
  | succ m ih =>
    rcases Nat.lt_or_eq_of_le hn with hlt | rfl
    · obtain ⟨⟨e, -, -, haway⟩, -⟩ := away_succ.mp h
      exact ih haway (by omega)
    · exact ⟨a, h⟩

/-! ## 2. One round -/

theorem edgesInto_pairwise (r : Roster) (ids : List JobId) :
    (r.edgesInto ids).Pairwise fun a b => a.job.le b.job = true :=
  @List.pairwise_mergeSort Edge (fun a b => a.job.le b.job) (fun _ _ _ => JobId.le_trans)
    (fun a b => JobId.le_total a.job b.job) _

/-- A round collects the rows of each job in the order in which they are filed. -/
theorem filter_edgesInto (hw : r.edges.Keyed Edge.job) (ids : List JobId) (k : JobId) :
    (r.edgesInto ids).filter (·.job == k)
      = (r.edges.rowsOf k).filter fun e => ids.contains e.waitsOn := by
  have hstable : (r.edgesInto ids).filter (·.job == k)
      = (r.edges.all.filter fun e => ids.contains e.waitsOn).filter (·.job == k) := by
    refine @filter_mergeSort Edge (fun a b => a.job.le b.job) (fun _ _ _ => JobId.le_trans)
      (fun a b => JobId.le_total a.job b.job) _ (fun a b ha hb => ?_) _
    have hjobs : a.job = b.job := (eq_of_beq ha).trans (eq_of_beq hb).symm
    exact hjobs ▸ JobId.le_refl _
  rw [hstable, List.filter_comm, Filed.filter_all hw]

/-- It does not matter in which order a round comes across the rows of different jobs. -/
theorem edgesInto_of_perm (hw : r.edges.Keyed Edge.job) {f : Filed Edge}
    (hf : f.entries.Perm r.edges.entries) (ids : List JobId) :
    ({ r with edges := f } : Roster).edgesInto ids = r.edgesInto ids := by
  have hrows : ∀ i, f.rowsOf i = r.edges.rowsOf i := Filed.rowsOf_of_perm hf
  have hw' : ({ r with edges := f } : Roster).edges.Keyed Edge.job := fun i e he =>
    hw i e (hrows i ▸ he)
  have hjobs : ∀ k, (({ r with edges := f } : Roster).edgesInto ids).filter (·.job == k)
      = (r.edgesInto ids).filter (·.job == k) := by
    intro k
    rw [filter_edgesInto hw', filter_edgesInto hw, hrows]
  refine eq_of_sorted_of_filter (fun e _ => ⟨e.job, beq_self_eq_true _⟩)
    (fun e _ => ⟨e.job, beq_self_eq_true _⟩) (fun a _ b _ hab hba k => ?_) hjobs
    (edgesInto_pairwise _ ids) (edgesInto_pairwise r ids)
  rw [JobId.le_antisymm hab hba]

/-- When a round begins, its frontier are the jobs that are `n` rows away, and those that were seen
are they and everybody who is closer. -/
structure Frontier (r : Roster) (id : JobId) (n : Nat) (seen frontier : List JobId) : Prop where
  frontier : ∀ a, a ∈ frontier ↔ r.Away id n a
  seen : ∀ a, a ∈ seen ↔ ∃ m ≤ n, r.Away id m a

theorem frontier_start (r : Roster) (id : JobId) : r.Frontier id 0 [id] [id] where
  frontier a := by rw [List.mem_singleton, away_zero]
  seen a := by simp [away_zero]

namespace Frontier

variable {seen frontier : List JobId}

theorem mem_edgesInto (h : r.Frontier id n seen frontier) :
    e ∈ r.edgesInto frontier ↔ e ∈ r.edges.all ∧ r.Away id n e.waitsOn := by
  rw [Roster.mem_edgesInto, h.frontier]

/-- Whoever is seen for the first time is one row further away. -/
theorem mem_next (h : r.Frontier id n seen frontier) :
    a ∈ r.next seen frontier ↔ r.Away id (n + 1) a := by
  simp only [Roster.mem_next, h.mem_edgesInto, h.seen, away_succ, not_exists, not_and]
  refine and_congr_left fun _ => exists_congr fun e => ?_
  rw [and_assoc, and_comm (b := e.job = a)]

theorem next (h : r.Frontier id n seen frontier) :
    r.Frontier id (n + 1) (seen ++ r.next seen frontier) (r.next seen frontier) where
  frontier a := h.mem_next
  seen a := by
    rw [List.mem_append, h.seen, h.mem_next]
    constructor
    · rintro (⟨m, hm, haway⟩ | haway)
      · exact ⟨m, by omega, haway⟩
      · exact ⟨n + 1, Nat.le_refl _, haway⟩
    · rintro ⟨m, hm, haway⟩
      rcases Nat.lt_or_eq_of_le hm with hlt | rfl
      · exact .inl ⟨m, by omega, haway⟩
      · exact .inr haway

end Frontier

/-! ## 3. All rounds -/

/-- By the shortest way to `id`, and then by the jobs that wait. -/
def Before (r : Roster) (id : JobId) (e f : Edge) : Prop :=
  ∀ m n, r.Away id m e.waitsOn → r.Away id n f.waitsOn → m < n ∨ m = n ∧ e.job.le f.job = true

/-- The rows that wait on jobs at least `n` rows away. -/
structure Found (r : Roster) (id : JobId) (n : Nat) (found : List Edge) : Prop where
  mem : ∀ e, e ∈ found ↔ e ∈ r.edges.all ∧ ∃ m, n ≤ m ∧ r.Away id m e.waitsOn
  sorted : found.Pairwise (r.Before id)
  filing : ∀ k m, n ≤ m → found.filter (fun e => e.job = k ∧ r.Away id m e.waitsOn)
    = (r.edges.rowsOf k).filter fun e => r.Away id m e.waitsOn

/-- If nobody is so far away, then there are no such rows. -/
theorem found_nil (h : ∀ a, ¬r.Away id n a) : r.Found id n [] := by
  have hnobody : ∀ m, n ≤ m → ∀ a, ¬r.Away id m a := by
    intro m hm a haway
    obtain ⟨b, hb⟩ := haway.exists_of_le hm
    exact h b hb
  refine ⟨fun e => ?_, .nil, fun k m hm => ?_⟩
  · simp only [List.not_mem_nil, false_iff]
    rintro ⟨-, m, hm, haway⟩
    exact hnobody m hm _ haway
  · simp [hnobody m hm]

/-- Where nothing waits on a job that is `m` rows away, no such rows are filtered out. -/
theorem filter_away_eq_nil {l : List Edge} {m : Nat} (h : ∀ e ∈ l, ¬r.Away id m e.waitsOn)
    (k : JobId) : l.filter (fun e => e.job = k ∧ r.Away id m e.waitsOn) = [] := by
  refine List.filter_eq_nil_iff.mpr fun e he heq => ?_
  exact h e he (of_decide_eq_true heq).2

/-- The rows of a job that a round collects. -/
theorem Frontier.filter_edgesInto (hw : r.edges.Keyed Edge.job) {seen frontier : List JobId}
    (h : r.Frontier id n seen frontier) (k : JobId) :
    (r.edgesInto frontier).filter (fun e => e.job = k ∧ r.Away id n e.waitsOn)
      = (r.edges.rowsOf k).filter fun e => r.Away id n e.waitsOn := by
  have hfrontier : ∀ e : Edge, frontier.contains e.waitsOn = decide (r.Away id n e.waitsOn) := by
    intro e
    rw [List.contains_eq_mem, decide_eq_decide, h.frontier]
  have hround := Roster.filter_edgesInto hw frontier k
  simp only [hfrontier] at hround
  rw [← hround]
  refine List.filter_congr fun e he => ?_
  have haway := (h.mem_edgesInto.mp he).2
  by_cases hk : e.job = k <;> simp [hk, haway]

/-- One round, and all that come after it. -/
theorem Found.round (hw : r.edges.Keyed Edge.job) {seen frontier : List JobId} {rest : List Edge}
    (h : r.Frontier id n seen frontier) (hrest : r.Found id (n + 1) rest) :
    r.Found id n (r.edgesInto frontier ++ rest) := by
  have hnear : ∀ {e m}, e ∈ r.edgesInto frontier → r.Away id m e.waitsOn → m = n :=
    fun he haway => haway.unique (h.mem_edgesInto.mp he).2
  have hfar : ∀ {e m}, e ∈ rest → r.Away id m e.waitsOn → n < m := by
    intro e m he haway
    obtain ⟨-, k, hk, hk'⟩ := (hrest.mem e).mp he
    obtain rfl := haway.unique hk'
    exact hk
  refine ⟨fun e => ?_, ?_, fun k m hm => ?_⟩
  · rw [List.mem_append, h.mem_edgesInto, hrest.mem, ← and_or_left]
    refine and_congr_right fun _ => ?_
    constructor
    · rintro (haway | ⟨m, hm, haway⟩)
      · exact ⟨n, Nat.le_refl n, haway⟩
      · exact ⟨m, by omega, haway⟩
    · rintro ⟨m, hm, haway⟩
      rcases Nat.lt_or_eq_of_le hm with hlt | rfl
      · exact .inr ⟨m, hlt, haway⟩
      · exact .inl haway
  · refine List.pairwise_append.mpr ⟨?_, hrest.sorted, fun e he f hf l m hl hm => .inl ?_⟩
    · refine (edgesInto_pairwise r frontier).imp_of_mem fun {e f} he hf hle l m hl hm => .inr ?_
      exact ⟨(hnear he hl).trans (hnear hf hm).symm, hle⟩
    · obtain rfl := hnear he hl
      exact hfar hf hm
  · rw [List.filter_append]
    rcases Nat.lt_or_eq_of_le hm with hlt | rfl
    · have hnone : ∀ e ∈ r.edgesInto frontier, ¬r.Away id m e.waitsOn := fun e he haway =>
        Nat.ne_of_gt hlt (hnear he haway)
      rw [filter_away_eq_nil hnone, List.nil_append, hrest.filing k m hlt]
    · have hnone : ∀ e ∈ rest, ¬r.Away id n e.waitsOn := fun e he haway =>
        Nat.lt_irrefl n (hfar he haway)
      rw [filter_away_eq_nil hnone, List.append_nil, h.filter_edgesInto hw]

/-- The rounds that are left find what is left to be found. -/
theorem found_layersFrom (hw : r.edges.Keyed Edge.job) :
    ∀ (fuel : Nat) {n : Nat} {seen frontier : List JobId},
      r.Frontier id n seen frontier → (r.unseen seen).length < fuel →
        r.Found id n (r.layersFrom fuel seen frontier).flatten
  | 0, _, _, _, _, hfuel => absurd hfuel (Nat.not_lt_zero _)
  | fuel + 1, n, seen, frontier, h, hfuel => by
    rw [flatten_layersFrom_succ]
    refine Found.round hw h ?_
    by_cases hmore : ∃ a, a ∈ r.next seen frontier
    · obtain ⟨a, ha⟩ := hmore
      have hless := length_unseen_next_lt ha
      exact found_layersFrom hw fuel h.next (by omega)
    · -- nobody was seen for the first time, so nobody is further away
      have hnil : r.next seen frontier = [] :=
        List.eq_nil_iff_forall_not_mem.mpr fun a ha => hmore ⟨a, ha⟩
      rw [hnil, layersFrom_nil]
      exact found_nil fun a haway => hmore ⟨a, h.mem_next.mpr haway⟩

/-! ## 4. The rows behind a job -/

/-- The rows behind a job: those that wait on it or on whoever waits on it, directly or through
others, each as often as it is filed.  They are sorted by the shortest way from whom they wait on,
then by the job that waits, and those of one job come in the order in which they are filed. -/
structure Behind (r : Roster) (id : JobId) (found : List Edge) : Prop where
  only : ∀ e ∈ found, e ∈ r.edges.all ∧ ReflTransGen r.Names e.waitsOn id
  once : ∀ e, ReflTransGen r.Names e.waitsOn id → found.count e = r.edges.all.count e
  sorted : found.Pairwise (r.Before id)
  filing : ∀ k n, found.filter (fun e => e.job = k ∧ r.Away id n e.waitsOn)
    = (r.edges.rowsOf k).filter fun e => r.Away id n e.waitsOn

theorem Found.behind (hw : r.edges.Keyed Edge.job) {found : List Edge} (h : r.Found id 0 found) :
    r.Behind id found where
  only e he := by
    obtain ⟨hfiled, n, -, haway⟩ := (h.mem e).mp he
    exact ⟨hfiled, exists_away_iff.mp ⟨n, haway⟩⟩
  once e he := by
    obtain ⟨n, haway⟩ := exists_away_iff.mpr he
    have hkind := congrArg (List.count e) (h.filing e.job n (Nat.zero_le n))
    rw [List.count_filter (by simp [haway]), List.count_filter (by simp [haway])] at hkind
    rw [hkind, ← Filed.filter_all hw, List.count_filter (by simp)]
  sorted := h.sorted
  filing k n := h.filing k n (Nat.zero_le n)

/-- There is no other such list. -/
theorem Behind.unique {found found' : List Edge} (h : r.Behind id found)
    (h' : r.Behind id found') : found = found' := by
  have hkind : ∀ {l : List Edge}, r.Behind id l → ∀ e ∈ l, ∃ i : JobId × Nat,
      decide (e.job = i.1 ∧ r.Away id i.2 e.waitsOn) = true := by
    intro l hl e he
    obtain ⟨n, haway⟩ := exists_away_iff.mpr (hl.only e he).2
    exact ⟨(e.job, n), decide_eq_true ⟨rfl, haway⟩⟩
  have hsame : ∀ i : JobId × Nat, found.filter (fun e => e.job = i.1 ∧ r.Away id i.2 e.waitsOn)
      = found'.filter fun e => e.job = i.1 ∧ r.Away id i.2 e.waitsOn := by
    intro i
    rw [h.filing, h'.filing]
  refine eq_of_sorted_of_filter (hkind h) (hkind h') (fun e he f hf hef hfe i => ?_) hsame h.sorted
    h'.sorted
  obtain ⟨m, hm⟩ := exists_away_iff.mpr (h.only e he).2
  obtain ⟨n, hn⟩ := exists_away_iff.mpr (h'.only f hf).2
  have hforth := hef m n hm hn
  have hback := hfe n m hn hm
  obtain rfl : m = n := by omega
  have hjob : e.job = f.job := JobId.le_antisymm
    (hforth.resolve_left (Nat.lt_irrefl m)).2 (hback.resolve_left (Nat.lt_irrefl m)).2
  have haway : r.Away id i.2 e.waitsOn ↔ r.Away id i.2 f.waitsOn := by
    constructor
    · intro hi
      exact hi.unique hm ▸ hn
    · intro hi
      exact hi.unique hn ▸ hm
  rw [hjob, decide_eq_decide, haway]

theorem behind_layersFrom (hw : r.edges.Keyed Edge.job) (id : JobId) {rounds : Nat}
    (hrounds : r.edges.all.length < rounds) :
    r.Behind id (r.layersFrom rounds [id] [id]).flatten := by
  have hfuel := Nat.lt_of_le_of_lt (r.length_unseen_le [id]) hrounds
  exact (found_layersFrom hw rounds (frontier_start r id) hfuel).behind hw

/-! ## 5. Rounds in any order -/

/-- The rounds from `frontier` on, until one of them collects nothing or sees nobody for the first
time.  In each of them the entries come in an order of its own.  `none` if they have not come to an
end after so many. -/
def search? (r : Roster) (orders : Nat → Filed Edge) :
    Nat → List JobId → List JobId → Option (List Edge)
  | 0, _, _ => none
  | rounds + 1, seen, frontier =>
    let layer := ({ r with edges := orders rounds } : Roster).edgesInto frontier
    if layer.isEmpty then some []
    else
      let next := firstSeen seen (layer.map Edge.job)
      if next.isEmpty then some layer
      else (r.search? orders rounds (seen ++ next) next).map (layer ++ ·)

theorem search?_eq_some (hw : r.edges.Keyed Edge.job) {orders : Nat → Filed Edge}
    (horders : ∀ n, (orders n).entries.Perm r.edges.entries) :
    ∀ (rounds : Nat) {seen frontier : List JobId}, (r.unseen seen).length < rounds →
      r.search? orders rounds seen frontier = some (r.layersFrom rounds seen frontier).flatten
  | 0, _, _, h => absurd h (Nat.not_lt_zero _)
  | rounds + 1, seen, frontier, h => by
    rw [flatten_layersFrom_succ, search?, edgesInto_of_perm hw (horders rounds)]
    show (if (r.edgesInto frontier).isEmpty then some [] else
      if (r.next seen frontier).isEmpty then some (r.edgesInto frontier) else
        (r.search? orders rounds (seen ++ r.next seen frontier) (r.next seen frontier)).map
          (r.edgesInto frontier ++ ·)) = _
    cases hnext : r.next seen frontier with
    | nil =>
      rw [layersFrom_nil]
      cases r.edgesInto frontier <;> simp
    | cons a rest =>
      have ha : a ∈ r.next seen frontier := hnext ▸ List.mem_cons_self
      have hless := length_unseen_next_lt ha
      rw [hnext] at hless
      rw [search?_eq_some hw horders rounds (by omega)]
      cases hlayer : r.edgesInto frontier with
      | nil =>
        obtain ⟨⟨e, he, -⟩, -⟩ := mem_next.mp ha
        rw [hlayer] at he
        cases he
      | cons e layer => rfl

end Roster

/-! ## 6. What is found -/

/-- **The search for the dependents of a job is exact, and comes to an end.**  For every roster
whose rows are filed under their own jobs, and every id, stored or not: what is found are the rows
behind the job, and no other list could be said to be these.  Rounds in any order find the same, and
they have come to an end after as many of them as there are rows, and one more. -/
theorem dependents_exact {r : Roster} (hw : r.edges.Keyed Edge.job) (id : JobId) :
    (∀ found, r.Behind id found ↔ found = r.dependents id) ∧
      ∀ orders : Nat → Filed Edge, (∀ n, (orders n).entries.Perm r.edges.entries) →
        ∀ rounds, r.edges.all.length < rounds →
          r.search? orders rounds [id] [id] = some (r.dependents id) := by
  have hbehind : r.Behind id (r.dependents id) :=
    Roster.behind_layersFrom hw id (Nat.lt_succ_self _)
  refine ⟨fun found => ⟨fun h => h.unique hbehind, ?_⟩, fun orders horders rounds hrounds => ?_⟩
  · rintro rfl
    exact hbehind
  · have hfuel := Nat.lt_of_le_of_lt (r.length_unseen_le [id]) hrounds
    rw [Roster.search?_eq_some hw horders rounds hfuel,
      (Roster.behind_layersFrom hw id hrounds).unique hbehind]

/-- Rows as they are read from a store.  Two ways lead from `top` to `root`, and a row of one of
them is there twice; `top` waits on itself, `root` waits on `top` in turn, and one row leads
elsewhere. -/
def loopedRows : List Edge :=
  [⟨⟨"top"⟩, ⟨"right"⟩⟩, ⟨⟨"top"⟩, ⟨"left"⟩⟩, ⟨⟨"right"⟩, ⟨"root"⟩⟩, ⟨⟨"left"⟩, ⟨"root"⟩⟩,
    ⟨⟨"top"⟩, ⟨"top"⟩⟩, ⟨⟨"root"⟩, ⟨"top"⟩⟩, ⟨⟨"other"⟩, ⟨"absent"⟩⟩, ⟨⟨"top"⟩, ⟨"right"⟩⟩]

/-- No job is stored.  The rows are found nevertheless, and so they are if the entries come in the
opposite order. -/
theorem dependents_loopedRows :
    let r := Roster.ofSnapshot { edges := loopedRows }
    let backwards : Filed Edge := ⟨r.edges.entries.reverse, by decide⟩
    let found : List Edge := [⟨⟨"left"⟩, ⟨"root"⟩⟩, ⟨⟨"right"⟩, ⟨"root"⟩⟩, ⟨⟨"top"⟩, ⟨"right"⟩⟩,
      ⟨⟨"top"⟩, ⟨"left"⟩⟩, ⟨⟨"top"⟩, ⟨"right"⟩⟩, ⟨⟨"root"⟩, ⟨"top"⟩⟩, ⟨⟨"top"⟩, ⟨"top"⟩⟩]
    r.edges.Keyed Edge.job ∧ r.Behind ⟨"root"⟩ found ∧
      r.search? (fun _ => backwards) 9 [⟨"root"⟩] [⟨"root"⟩] = some found := by
  intro r backwards found
  have hw : r.edges.Keyed Edge.job := Filed.byKey_keyed _ _
  have hfound : found = r.dependents ⟨"root"⟩ := by cbv
  obtain ⟨hbehind, hsearch⟩ := dependents_exact hw ⟨"root"⟩
  refine ⟨hw, (hbehind found).mpr hfound, ?_⟩
  rw [hfound]
  exact hsearch _ (fun _ => List.reverse_perm _) 9 (by decide)

end Backlog
