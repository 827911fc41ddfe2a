/-
# The order among jobs of one age

A store sorts its jobs by age when it is read, and the roster then adds jobs at the end.  So the
two lists differ, but not in what matters to queue heads: jobs created at the same time stand in
the same order in both.  `SameOrder` says this of two lists, and it is kept by everything that
keeps creation times.

* `eq_of_sorted_of_filter`, `filter_mergeSort`: sorted lists are told apart only by the order within
  each kind of what they hold, and sorting leaves that order alone;
* `SameOrder.append`, `SameOrder.filter`, `SameOrder.map`, `oldestFirst_sameOrder`: how it arises;
* `SameOrder.earliest?_eq`, `SameOrder.head?_eq`: two such lists have the same earliest job, and the
  same queue heads;
* `SameOrder.of_perm`: it is only lost if two jobs of one age change places;
* `SameOrder.oldestFirst_eq`: two such lists are equal once they are sorted.
-/
import Backlog.Proofs.Heads

namespace Backlog

/-- Two arrangements of the same things put some two of them in opposite orders. -/
theorem exists_swapped {α : Type} : ∀ {l l' : List α}, l.Perm l' → l ≠ l' →
    ∃ a b, a ≠ b ∧ [a, b].Sublist l ∧ [b, a].Sublist l'
  | [], l', hp, hne => absurd hp.nil_eq hne
  | a :: l, [], hp, _ => absurd hp.symm.nil_eq (by simp)
  | a :: l, b :: l', hp, hne => by
    by_cases hab : a = b
    · subst hab
      have hne' : l ≠ l' := fun h => hne (by rw [h])
      obtain ⟨c, e, hce, hl, hl'⟩ := exists_swapped ((List.perm_cons a).mp hp) hne'
      exact ⟨c, e, hce, hl.cons a, hl'.cons a⟩
    · -- each of the two first ones stands further back on the other side
      have ha : a ∈ l' := (List.mem_cons.mp (hp.subset List.mem_cons_self)).resolve_left hab
      have hb : b ∈ l := (List.mem_cons.mp (hp.symm.subset List.mem_cons_self)).resolve_left
        (Ne.symm hab)
      exact ⟨a, b, hab, List.cons_sublist_cons.mpr (List.singleton_sublist.mpr hb),
        List.cons_sublist_cons.mpr (List.singleton_sublist.mpr ha)⟩

/-- Where nothing occurs twice, no two things stand in both orders. -/
theorem not_pair_sublist_swap {α : Type} {a b : α} (hab : a ≠ b) : ∀ {l : List α}, l.Nodup →
    [a, b].Sublist l → ¬[b, a].Sublist l
  | [], _, h, _ => absurd (h.subset List.mem_cons_self) (by simp)
  | c :: l, hn, h, h' => by
    obtain ⟨hc, hl⟩ := List.nodup_cons.mp hn
    cases h with
    | cons _ h =>
      cases h' with
      | cons _ h' => exact not_pair_sublist_swap hab hl h h'
      | cons_cons _ _ => exact hc (h.subset (by simp))
    | cons_cons _ _ =>
      cases h' with
      | cons _ h' => exact hc (h'.subset (by simp))
      | cons_cons _ _ => exact hab rfl

theorem mem_of_filter_eq {α ι : Type} {kind : ι → α → Bool} {l l' : List α} {a : α}
    (h : ∀ i, l.filter (kind i) = l'.filter (kind i)) (hk : ∃ i, kind i a = true) (ha : a ∈ l) :
    a ∈ l' := by
  obtain ⟨i, hi⟩ := hk
  have hfiltered : a ∈ l.filter (kind i) := List.mem_filter.mpr ⟨ha, hi⟩
  rw [h i] at hfiltered
  exact List.mem_of_mem_filter hfiltered

/-- Two sorted lists are equal if everything in them is of some kind, things that could stand in
either order are of one kind, and those of one kind stand in the same order in both. -/
theorem eq_of_sorted_of_filter {α ι : Type} {R : α → α → Prop} {kind : ι → α → Bool} :
    ∀ {l l' : List α}, (∀ a ∈ l, ∃ i, kind i a = true) → (∀ a ∈ l', ∃ i, kind i a = true) →
      (∀ a ∈ l, ∀ b ∈ l', R a b → R b a → ∀ i, kind i a = kind i b) →
      (∀ i, l.filter (kind i) = l'.filter (kind i)) → l.Pairwise R → l'.Pairwise R → l = l'
  | [], [], _, _, _, _, _, _ => rfl
  | [], b :: l', _, hk', _, h, _, _ =>
    absurd (mem_of_filter_eq (fun i => (h i).symm) (hk' b List.mem_cons_self) List.mem_cons_self)
      List.not_mem_nil
  | a :: l, [], hk, _, _, h, _, _ =>
    absurd (mem_of_filter_eq h (hk a List.mem_cons_self) List.mem_cons_self) List.not_mem_nil
  | a :: l, b :: l', hk, hk', hR, h, hs, hs' => by
    obtain ⟨ha, hl⟩ := List.pairwise_cons.mp hs
    obtain ⟨hb, hl'⟩ := List.pairwise_cons.mp hs'
    obtain ⟨i, hi⟩ := hk a List.mem_cons_self
    have hmem : a ∈ b :: l' := mem_of_filter_eq h ⟨i, hi⟩ List.mem_cons_self
    have hmem' : b ∈ a :: l :=
      mem_of_filter_eq (fun i => (h i).symm) (hk' b List.mem_cons_self) List.mem_cons_self
    obtain rfl : a = b := by
      rcases List.mem_cons.mp hmem with hab | hal
      · exact hab
      rcases List.mem_cons.mp hmem' with hba | hbl
      · exact hba.symm
      -- each of the two stands in front of the other somewhere, so they are of one kind
      have hsame := hR a List.mem_cons_self b List.mem_cons_self (ha b hbl) (hb a hal) i
      have hfirst := h i
      rw [List.filter_cons_of_pos hi, List.filter_cons_of_pos (hsame ▸ hi)] at hfirst
      exact (List.cons.inj hfirst).1
    have hrest : ∀ i, l.filter (kind i) = l'.filter (kind i) := by
      intro i
      have hi := h i
      rw [List.filter_cons, List.filter_cons] at hi
      split at hi
      · exact (List.cons.inj hi).2
      · exact hi
    have htail : l = l' := eq_of_sorted_of_filter
      (fun b hb => hk b (List.mem_cons_of_mem _ hb))
      (fun b hb => hk' b (List.mem_cons_of_mem _ hb))
      (fun b hb c hc => hR b (List.mem_cons_of_mem _ hb) c (List.mem_cons_of_mem _ hc)) hrest hl hl'
    rw [htail]

/-- Sorting is stable: things of one kind, which could stand in either order, are left as they
were. -/
theorem filter_mergeSort {α : Type} {le : α → α → Bool}
    (htrans : ∀ a b c, le a b = true → le b c = true → le a c = true)
    (htotal : ∀ a b, (le a b || le b a) = true) {p : α → Bool}
    (hp : ∀ a b, p a = true → p b = true → le a b = true) (l : List α) :
    (l.mergeSort le).filter p = l.filter p := by
  have hsorted : (l.filter p).Pairwise fun a b => le a b = true :=
    List.pairwise_of_forall_mem_list fun a ha b hb =>
      hp a b (List.mem_filter.mp ha).2 (List.mem_filter.mp hb).2
  have hsub : (l.filter p).Sublist (l.mergeSort le) :=
    List.sublist_mergeSort htrans htotal hsorted List.filter_sublist
  have hsub' := hsub.filter p
  rw [List.filter_filter] at hsub'
  simp only [Bool.and_self] at hsub'
  exact (hsub'.eq_of_length ((List.mergeSort_perm l le).filter _).length_eq.symm).symm

/-- Jobs created at the same time stand in the same order in both lists. -/
def SameOrder (l l' : List Job) : Prop :=
  ∀ t : Int64, l.filter (·.created == t) = l'.filter (·.created == t)

namespace SameOrder

variable {l l' : List Job}

theorem refl (l : List Job) : SameOrder l l := fun _ => rfl

theorem trans {l'' : List Job} (h : SameOrder l l') (h' : SameOrder l' l'') : SameOrder l l'' :=
  fun t => (h t).trans (h' t)

theorem append (h : SameOrder l l') (more : List Job) : SameOrder (l ++ more) (l' ++ more) := by
  intro t
  rw [List.filter_append, List.filter_append, h t]

theorem filter (h : SameOrder l l') (p : Job → Bool) : SameOrder (l.filter p) (l'.filter p) := by
  intro t
  rw [List.filter_comm, h t, List.filter_comm]

theorem mem_iff (h : SameOrder l l') {j : Job} : j ∈ l ↔ j ∈ l' := by
  have hself : ∀ m : List Job, j ∈ m ↔ j ∈ m.filter (·.created == j.created) := by simp
  rw [hself l, hself l', h j.created]

/-- It is enough that the jobs in the lists keep their creation times. -/
theorem map_of_mem (h : SameOrder l l') {f : Job → Job}
    (hf : ∀ j ∈ l, (f j).created = j.created) : SameOrder (l.map f) (l'.map f) := by
  intro t
  have hage : ∀ m : List Job, (∀ j ∈ m, (f j).created = j.created) →
      (m.map f).filter (·.created == t) = (m.filter (·.created == t)).map f := by
    intro m hm
    rw [List.filter_map]
    refine congrArg _ (List.filter_congr fun j hj => ?_)
    simp [hm j hj]
  rw [hage l hf, hage l' fun j hj => hf j (h.mem_iff.mpr hj), h t]

theorem map (h : SameOrder l l') {f : Job → Job} (hf : ∀ j, (f j).created = j.created) :
    SameOrder (l.map f) (l'.map f) :=
  h.map_of_mem fun j _ => hf j

theorem symm (h : SameOrder l l') : SameOrder l' l := fun t => (h t).symm

/-- Two jobs of one age stand the same way in both lists. -/
theorem pair_sublist (h : SameOrder l l') {a b : Job} (hab : a.created = b.created)
    (hsub : [a, b].Sublist l) : [a, b].Sublist l' := by
  have hage : [a, b].filter (·.created == a.created) = [a, b] := by simp [hab]
  have hsub' : [a, b].Sublist (l'.filter (·.created == a.created)) := by
    rw [← h a.created, ← hage]
    exact hsub.filter _
  exact hsub'.trans List.filter_sublist

/-- Where two arrangements of the same jobs differ, jobs of different ages have changed places. -/
theorem of_perm (hp : l.Perm l')
    (h : ∀ a b, a ≠ b → a.created = b.created → [a, b].Sublist l → ¬[b, a].Sublist l') :
    SameOrder l l' := by
  intro t
  by_contra hne
  obtain ⟨a, b, hab, hl, hl'⟩ := exists_swapped (hp.filter _) hne
  have hat : a.created = t := by simpa using (List.mem_filter.mp (hl.subset (by simp))).2
  have hbt : b.created = t := by simpa using (List.mem_filter.mp (hl.subset (by simp))).2
  exact h a b hab (hat.trans hbt.symm) (hl.trans List.filter_sublist)
    (hl'.trans List.filter_sublist)

theorem earliest?_eq (h : SameOrder l l') : earliest? l = earliest? l' := by
  refine Option.ext fun j => ?_
  have hgo : ∀ {l l' : List Job}, SameOrder l l' → earliest? l = some j →
      earliest? l' = some j := by
    intro l l' h he
    obtain ⟨l₁, l₂, heq, h₁, -⟩ := earliest?_eq_some_iff.mp he
    -- among those of its age, the earliest job of `l` comes first, so it does in `l'` too
    have hage : l.filter (·.created == j.created) = j :: l₂.filter (·.created == j.created) := by
      have hnone : l₁.filter (·.created == j.created) = [] := by
        refine List.filter_eq_nil_iff.mpr fun k hk heq' => ?_
        have := h₁ k hk
        rw [beq_iff_eq.mp heq'] at this
        omega
      rw [heq, List.filter_append, hnone, List.nil_append,
        List.filter_cons_of_pos (by simp)]
    rw [h j.created] at hage
    obtain ⟨m₁, m₂, heq', hm₁, -, -⟩ := List.filter_eq_cons_iff.mp hage
    have hle : ∀ k ∈ l', j.created.toInt ≤ k.created.toInt := fun k hk =>
      earliest?_le he (h.mem_iff.mpr hk)
    refine earliest?_eq_some_iff.mpr ⟨m₁, m₂, heq', fun k hk => ?_, fun k hk => ?_⟩
    · have hne : ¬k.created.toInt = j.created.toInt := fun hke =>
        hm₁ k hk (beq_iff_eq.mpr (Int64.toInt_inj.mp hke))
      have := hle k (by rw [heq']; exact List.mem_append_left _ hk)
      omega
    · exact hle k (by rw [heq']; exact List.mem_append_right _ (List.mem_cons_of_mem _ hk))
  exact ⟨hgo h, hgo fun t => (h t).symm⟩

theorem head?_eq (h : SameOrder l l') (d : Discipline) (q : String) : d.head? q l = d.head? q l' :=
  (h.filter _).earliest?_eq

end SameOrder

/-- Sorting by age is stable. -/
theorem oldestFirst_sameOrder (l : List Job) : SameOrder (oldestFirst l) l := by
  intro t
  refine filter_mergeSort Job.noLater_trans Job.noLater_total (fun a b hat hbt => ?_) l
  have hage : a.created = b.created := (eq_of_beq hat).trans (eq_of_beq hbt).symm
  exact Job.noLater_iff.mpr (hage ▸ Int.le_refl _)

namespace SameOrder

variable {l l' : List Job}

/-- Two sorted lists that agree on the order among jobs of one age are equal. -/
theorem eq_of_sorted (h : SameOrder l l')
    (hs : l.Pairwise fun a b => a.created.toInt ≤ b.created.toInt)
    (hs' : l'.Pairwise fun a b => a.created.toInt ≤ b.created.toInt) : l = l' := by
  refine eq_of_sorted_of_filter (fun a _ => ⟨a.created, beq_self_eq_true _⟩)
    (fun a _ => ⟨a.created, beq_self_eq_true _⟩) (fun a _ b _ hab hba t => ?_) h hs hs'
  rw [Int64.toInt_inj.mp (Int.le_antisymm hab hba)]

theorem oldestFirst_eq (h : SameOrder l l') : oldestFirst l = oldestFirst l' :=
  eq_of_sorted (((oldestFirst_sameOrder l).trans h).trans (oldestFirst_sameOrder l').symm)
    (oldestFirst_pairwise l) (oldestFirst_pairwise l')

end SameOrder

theorem filter_oldestFirst (p : Job → Bool) (l : List Job) :
    (oldestFirst l).filter p = oldestFirst (l.filter p) :=
  SameOrder.eq_of_sorted (((oldestFirst_sameOrder l).filter p).trans
    (oldestFirst_sameOrder (l.filter p)).symm) ((oldestFirst_pairwise l).filter p)
    (oldestFirst_pairwise (l.filter p))

end Backlog
