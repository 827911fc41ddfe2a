/-
# Stored jobs never wait on each other in a circle

Each batch is swept together with everything that is stored, and stored rows only become fewer
otherwise.  So the waiting of stored jobs on stored jobs is without cycles after every run, even
though rows may name jobs that are yet to come.

* `Tables.Waits`: one stored job waits on another by a stored row;
* `leastId?_eq_some_iff`: which of some ids is picked;
* `Roster.cycle?_eq_none_iff`, `Tables.append_acyclic`: what the sweep of a batch establishes;
* `Reachable.acyclic`: the invariant.
-/
import Backlog.Proofs.Graph.Leftover
import Backlog.Proofs.Mirror

namespace Backlog

open Relation

/-! ## 1. The graph of a batch -/

theorem nodup_eraseDups {α : Type} [DecidableEq α] : ∀ l : List α, l.eraseDups.Nodup
  | [] => List.nodup_nil
  | a :: l => by
    have hrest : (l.filter fun b => !b == a).eraseDups.Nodup := nodup_eraseDups _
    have hnot : a ∉ (l.filter fun b => !b == a).eraseDups := by simp [List.mem_eraseDups]
    rw [List.eraseDups_cons]
    exact List.nodup_cons.mpr ⟨hnot, hrest⟩
termination_by l => l.length
decreasing_by
  have := List.length_filter_le (fun b => !b == a) l
  simp only [List.length_cons]
  omega

theorem leastId?_eq_none_iff {l : List JobId} : leastId? l = none ↔ l = [] := by
  cases l with
  | nil => simp [leastId?]
  | cons i rest => simp [leastId?]

namespace JobId

variable {a b c : JobId}

theorem le_iff : a.le b = true ↔ a.text ≤ b.text := decide_eq_true_iff

theorem le_refl (a : JobId) : a.le a = true := le_iff.mpr (String.le_refl _)

theorem le_trans (hab : a.le b = true) (hbc : b.le c = true) : a.le c = true :=
  le_iff.mpr (String.le_trans (le_iff.mp hab) (le_iff.mp hbc))

theorem le_of_not_le (h : ¬b.le a = true) : a.le b = true :=
  le_iff.mpr ((String.le_total a.text b.text).resolve_right fun hba => h (le_iff.mpr hba))

theorem le_total (a b : JobId) : (a.le b || b.le a) = true := by
  rw [Bool.or_eq_true, le_iff, le_iff]
  exact String.le_total _ _

theorem le_antisymm (hab : a.le b = true) (hba : b.le a = true) : a = b := by
  have htext : a.text = b.text := String.le_antisymm (le_iff.mp hab) (le_iff.mp hba)
  cases a
  cases b
  exact congrArg JobId.mk htext

end JobId

/-- The smaller of two ids is kept, all along the list. -/
theorem foldl_least : ∀ (rest : List JobId) (i : JobId),
    rest.foldl (fun a b => if b.le a then b else a) i ∈ i :: rest ∧
      ∀ j ∈ i :: rest, (rest.foldl (fun a b => if b.le a then b else a) i).le j = true
  | [], i => ⟨List.mem_singleton_self i, by simp [JobId.le_refl]⟩
  | k :: rest, i => by
    rw [List.foldl_cons]
    by_cases hki : k.le i = true
    · obtain ⟨hmem, hle⟩ := foldl_least rest k
      rw [if_pos hki]
      refine ⟨List.mem_cons_of_mem _ hmem, fun j hj => ?_⟩
      rcases List.mem_cons.mp hj with rfl | hj
      · exact JobId.le_trans (hle k List.mem_cons_self) hki
      · exact hle j hj
    · obtain ⟨hmem, hle⟩ := foldl_least rest i
      have hik : i.le k = true := JobId.le_of_not_le hki
      rw [if_neg hki]
      refine ⟨?_, fun j hj => ?_⟩
      · rcases List.mem_cons.mp hmem with hi | hrest
        · exact List.mem_cons.mpr (.inl hi)
        · exact List.mem_cons_of_mem _ (List.mem_cons_of_mem _ hrest)
      · rcases List.mem_cons.mp hj with rfl | hj
        · exact hle j List.mem_cons_self
        · rcases List.mem_cons.mp hj with rfl | hj
          · exact JobId.le_trans (hle i List.mem_cons_self) hik
          · exact hle j (List.mem_cons_of_mem _ hj)

theorem leastId?_eq_some_iff {l : List JobId} {i : JobId} :
    leastId? l = some i ↔ i ∈ l ∧ ∀ j ∈ l, i.le j = true := by
  cases l with
  | nil => simp [leastId?]
  | cons k rest =>
    obtain ⟨hmem, hle⟩ := foldl_least rest k
    rw [leastId?, Option.some.injEq]
    constructor
    · rintro rfl
      exact ⟨hmem, hle⟩
    · rintro ⟨hi, hall⟩
      exact JobId.le_antisymm (hle i hi) (hall _ hmem)

namespace Roster

variable {r : Roster} {batch : List Submission}

theorem mem_idsWith {id : JobId} :
    id ∈ r.idsWith batch ↔ Held r.jobs id ∨ id ∈ batch.map Submission.id := by
  rw [idsWith, List.mem_eraseDups, List.mem_append, Held]

theorem mem_waitGraph_edges {a b : JobId} :
    (a, b) ∈ (r.waitGraph batch).edges ↔
      Edge.mk a b ∈ r.edges.all ++ batch.flatMap Submission.edges ∧
        a ∈ r.idsWith batch ∧ b ∈ r.idsWith batch := by
  simp only [waitGraph, List.mem_map, List.mem_filter, Bool.and_eq_true, List.contains_iff_mem,
    Prod.mk.injEq]
  constructor
  · rintro ⟨⟨job, waitsOn⟩, ⟨he, hin⟩, rfl, rfl⟩
    exact ⟨he, hin⟩
  · rintro ⟨he, hin⟩
    exact ⟨⟨a, b⟩, ⟨he, hin⟩, rfl, rfl⟩

theorem waitGraph_wellFormed (r : Roster) (batch : List Submission) :
    (r.waitGraph batch).WellFormed where
  unique := nodup_eraseDups _
  inside := by
    rintro ⟨a, b⟩ he
    exact (mem_waitGraph_edges.mp he).2

theorem cycle?_eq_none_iff : r.cycle? batch = none ↔ (r.waitGraph batch).Acyclic :=
  leastId?_eq_none_iff.trans (WaitGraph.leftovers_eq_nil_iff (waitGraph_wellFormed r batch))

end Roster

/-! ## 2. The stored rows -/

namespace Tables

/-- One stored job waits on another by a stored row. -/
def Waits (t : Tables) (a b : JobId) : Prop :=
  Edge.mk a b ∈ t.edges ∧ Held t.jobs a ∧ Held t.jobs b

/-- No stored job waits on itself, directly or through others. -/
def Acyclic (t : Tables) : Prop := ∀ id, ¬TransGen t.Waits id id

variable {r : Roster} {t t' : Tables}

theorem Acyclic.mono (h : t.Acyclic) (hedges : ∀ e ∈ t'.edges, e ∈ t.edges)
    (hjobs : ∀ id, Held t'.jobs id → Held t.jobs id) : t'.Acyclic := by
  intro id hcycle
  have hsub : ∀ a b, t'.Waits a b → t.Waits a b := fun a b hab =>
    ⟨hedges _ hab.1, hjobs a hab.2.1, hjobs b hab.2.2⟩
  exact h id (TransGen.mono hsub _ _ hcycle)

/-- Jobs keep waiting as they do when records change and ids stay. -/
theorem Acyclic.of_ids (h : t.Acyclic) {jobs : List Job}
    (hids : jobs.map Job.id = t.jobs.map Job.id) : ({ t with jobs } : Tables).Acyclic :=
  h.mono (fun _ he => he) fun id hid => by rwa [Held, hids] at hid

theorem Acyclic.amend : ∀ (jobs : List Job) {t : Tables}, t.Acyclic → (t.amend jobs).Acyclic
  | [], _, h => h
  | j :: rest, t, h => by
    have hj : (t.replace j).Acyclic := h.of_ids (map_modifyFirst_of_keeps fun k hk => by simp_all)
    exact Acyclic.amend rest hj

/-- A batch that passes the sweep leaves no cycle. -/
theorem append_acyclic (hs : InStep r t) {batch : List Submission}
    (hc : r.cycle? batch = none) : (t.append batch).Acyclic := by
  have hin : ∀ id, Held (t.append batch).jobs id → id ∈ r.idsWith batch := by
    intro id hid
    rw [Held, append, List.map_append, List.map_map, List.mem_append] at hid
    exact Roster.mem_idsWith.mpr (hid.imp_left (hs.perm.map Job.id).mem_iff.mpr)
  intro id hcycle
  have hsub : ∀ a b, (t.append batch).Waits a b → (a, b) ∈ (r.waitGraph batch).edges := by
    rintro a b ⟨he, ha, hb⟩
    refine Roster.mem_waitGraph_edges.mpr ⟨?_, hin a ha, hin b hb⟩
    rw [append, List.mem_append] at he
    refine List.mem_append.mpr (he.imp_left fun he => Filed.mem_all.mpr ⟨a, ?_⟩)
    rw [hs.same_edges]
    exact List.mem_filter.mpr ⟨he, by simp⟩
  exact Roster.cycle?_eq_none_iff.mp hc id
    (WaitGraph.path_iff_transGen.mpr (TransGen.mono hsub _ _ hcycle))

end Tables

/-! ## 3. The invariant -/

theorem Reachable.acyclic {x : MemoryIndex} (h : Reachable x) : x.store.inner.Acyclic := by
  induction h with
  | fresh d =>
    intro id hcycle
    obtain ⟨b, hab, -⟩ := TransGen.head'_iff.mp hcycle
    exact absurd hab.1 (by simp [Index.fresh])
  | @step x y c hx _ hxy ih =>
    cases c with
    | insert batch =>
      obtain ⟨hc, -, -, rfl⟩ := Index.insert_eq_ok_iff.mp hxy
      exact Tables.append_acyclic hx.inStep hc
    | setRunning id running =>
      obtain ⟨-, -, -, rfl⟩ := Index.setRunning_eq_ok_iff.mp hxy
      exact ih.of_ids (map_modifyFirst_of_keeps fun _ _ => rfl)
    | reschedule id running attempt due payload =>
      obtain ⟨-, -, -, rfl⟩ := Index.reschedule_eq_ok_iff.mp hxy
      exact ih.of_ids (map_modifyFirst_of_keeps fun _ _ => rfl)
    | clearRunning =>
      obtain ⟨-, rfl⟩ := Index.clearRunning_eq_ok_iff.mp hxy
      exact ih.of_ids (map_id_of_keeps (f := fun j => { j with running := false }) (fun _ => rfl) _)
    | amend jobs =>
      obtain ⟨-, rfl⟩ := Index.amend_eq_ok_iff.mp hxy
      exact Tables.Acyclic.amend _ ih
    | delete ids =>
      obtain ⟨-, rfl⟩ := Index.delete_eq_ok_iff.mp hxy
      refine ih.mono (fun e he => List.mem_of_mem_filter he) fun id hid => ?_
      exact (held_filter.mp hid).1
    | reopen d =>
      obtain rfl := Index.open_eq_ok_iff.mp hxy
      exact ih
    | refuse refusing =>
      obtain rfl := Except.ok.inj hxy
      exact ih

end Backlog
