/-
# Everybody who waits on a job

The search for the jobs that wait on a job goes back along the rows, one layer after the other, and
looks at no job twice.  Rows may name jobs that are not stored, lead to one job in several ways, or
lead in a circle; the search finds exactly the rows from which there is a way to the job.

* `Roster.Names`: a row says that one job waits on another, whether or not that one is stored;
* `Roster.mem_of_mem_layersFrom`: whatever is found leads to the job;
* `Roster.mem_layersFrom_of_mem`: what waits on something found is found as well, unless the search
  began behind it.  Each layer but the last brings a job that was not seen before
  (`Roster.length_unseen_next_lt`), so there is fuel enough for all of them;
* `Roster.mem_dependents_iff`: **the rows that are found**, and from it
  `Roster.mem_withDependents_iff` and `Runner.mem_casualties_iff`: who is dropped together with some
  jobs, or with one that failed.
-/
import Backlog.Proofs.Mirror
import Backlog.Runner
import Mathlib.Logic.Relation

namespace Backlog

open Relation

/-! ## 1. Ids at their first places -/

theorem mem_firstSeen {i : JobId} : ∀ {l seen : List JobId},
    i ∈ firstSeen seen l ↔ i ∈ l ∧ i ∉ seen
  | [], seen => by simp [firstSeen]
  | k :: rest, seen => by
    unfold firstSeen
    split
    · rename_i hk
      rw [mem_firstSeen, List.mem_cons]
      constructor
      · exact fun ⟨hi, hnew⟩ => ⟨.inr hi, hnew⟩
      · rintro ⟨rfl | hi, hnew⟩
        · exact absurd hk hnew
        · exact ⟨hi, hnew⟩
    · rename_i hk
      rw [List.mem_cons, mem_firstSeen, List.mem_cons, List.mem_cons, not_or]
      constructor
      · rintro (rfl | ⟨hi, -, hnew⟩)
        · exact ⟨.inl rfl, hk⟩
        · exact ⟨.inr hi, hnew⟩
      · rintro ⟨rfl | hi, hnew⟩
        · exact .inl rfl
        · by_cases hik : i = k
          · exact .inl hik
          · exact .inr ⟨hi, hik, hnew⟩

theorem nodup_firstSeen : ∀ {l seen : List JobId}, (firstSeen seen l).Nodup
  | [], _ => List.nodup_nil
  | k :: rest, seen => by
    unfold firstSeen
    split
    · exact nodup_firstSeen
    · refine List.nodup_cons.mpr ⟨fun hk => ?_, nodup_firstSeen⟩
      exact (mem_firstSeen.mp hk).2 List.mem_cons_self

namespace Roster

variable {r : Roster}

/-! ## 2. Layers -/

/-- A row that is filed says that `a` waits on `b`. -/
def Names (r : Roster) (a b : JobId) : Prop := Edge.mk a b ∈ r.edges.all

theorem mem_edgesInto {ids : List JobId} {e : Edge} :
    e ∈ r.edgesInto ids ↔ e ∈ r.edges.all ∧ e.waitsOn ∈ ids := by
  rw [edgesInto, List.mem_mergeSort, List.mem_filter, List.contains_iff_mem]

/-- The rows whose job has not been seen. -/
def unseen (r : Roster) (seen : List JobId) : List Edge := r.edges.all.filter fun e => e.job ∉ seen

theorem length_unseen_le (seen : List JobId) : (r.unseen seen).length ≤ r.edges.all.length :=
  List.length_filter_le _ _

/-- Whoever is seen for the first time has a row that is not counted any more. -/
theorem length_unseen_lt {seen next : List JobId} {e : Edge} (he : e ∈ r.edges.all)
    (hnew : e.job ∉ seen) (hnext : e.job ∈ next) :
    (r.unseen (seen ++ next)).length < (r.unseen seen).length := by
  have hsplit : r.unseen (seen ++ next) = (r.unseen seen).filter fun f => f.job ∉ next := by
    rw [unseen, unseen, List.filter_filter]
    refine List.filter_congr fun f _ => ?_
    simp [Bool.and_comm]
  rw [hsplit]
  refine List.length_filter_lt_length_iff_exists.mpr ⟨e, ?_, by simpa using hnext⟩
  exact List.mem_filter.mpr ⟨he, by simpa using hnew⟩

/-- The jobs of a layer that were not seen before: those of the next frontier. -/
def next (r : Roster) (seen frontier : List JobId) : List JobId :=
  firstSeen seen ((r.edgesInto frontier).map Edge.job)

theorem mem_next {seen frontier : List JobId} {i : JobId} :
    i ∈ r.next seen frontier ↔ (∃ e ∈ r.edgesInto frontier, e.job = i) ∧ i ∉ seen := by
  rw [next, mem_firstSeen, List.mem_map]

/-- If somebody is seen for the first time, fewer rows are left whose job has not been seen. -/
theorem length_unseen_next_lt {seen frontier : List JobId} {i : JobId}
    (hi : i ∈ r.next seen frontier) :
    (r.unseen (seen ++ r.next seen frontier)).length < (r.unseen seen).length := by
  obtain ⟨⟨e, he, rfl⟩, hnew⟩ := mem_next.mp hi
  exact length_unseen_lt (mem_edgesInto.mp he).1 hnew hi

theorem layersFrom_nil (fuel : Nat) (seen : List JobId) : r.layersFrom fuel seen [] = [] := by
  have hnil : r.edgesInto [] = [] :=
    List.eq_nil_iff_forall_not_mem.mpr fun e he => List.not_mem_nil (mem_edgesInto.mp he).2
  cases fuel with
  | zero => rfl
  | succ fuel => simp [layersFrom, hnil]

/-- The search goes on from the next frontier, and finds nothing more if there is none. -/
theorem flatten_layersFrom_succ (fuel : Nat) (seen frontier : List JobId) :
    (r.layersFrom (fuel + 1) seen frontier).flatten = r.edgesInto frontier ++
      (r.layersFrom fuel (seen ++ r.next seen frontier) (r.next seen frontier)).flatten := by
  rw [layersFrom, next]
  split
  · rename_i hnil
    simp [hnil, firstSeen, layersFrom_nil]
  · rw [List.flatten_cons]
    cases firstSeen seen ((r.edgesInto frontier).map Edge.job) with
    | nil => simp [layersFrom_nil]
    | cons i rest => simp

/-- Whatever is found leads to where the search began. -/
theorem mem_of_mem_layersFrom {e : Edge} : ∀ (fuel : Nat) {seen frontier : List JobId},
    e ∈ (r.layersFrom fuel seen frontier).flatten →
      e ∈ r.edges.all ∧ ∃ k ∈ frontier, ReflTransGen r.Names e.waitsOn k
  | 0, _, _, h => by simp [layersFrom] at h
  | fuel + 1, seen, frontier, h => by
    rw [flatten_layersFrom_succ, List.mem_append] at h
    rcases h with h | h
    · obtain ⟨he, hk⟩ := mem_edgesInto.mp h
      exact ⟨he, e.waitsOn, hk, .refl⟩
    · obtain ⟨he, k, hk, hek⟩ := mem_of_mem_layersFrom fuel h
      -- `k` is in the next frontier because of a row of its own
      obtain ⟨⟨f, hf, rfl⟩, -⟩ := mem_next.mp hk
      obtain ⟨hf, hfrontier⟩ := mem_edgesInto.mp hf
      exact ⟨he, f.waitsOn, hfrontier, hek.tail hf⟩

/-- A row that waits on the frontier, or on the job of a row that is found, is found as well, unless
it waits on what had been seen before the frontier. -/
theorem mem_layersFrom_of_mem {e : Edge} (he : e ∈ r.edges.all) :
    ∀ (fuel : Nat) {seen frontier : List JobId}, (r.unseen seen).length < fuel →
      (e.waitsOn ∈ frontier ∨
        ∃ f ∈ (r.layersFrom fuel seen frontier).flatten, f.job = e.waitsOn) →
      e ∈ (r.layersFrom fuel seen frontier).flatten ∨ e.waitsOn ∈ seen ∧ e.waitsOn ∉ frontier
  | 0, _, _, hfuel, _ => absurd hfuel (Nat.not_lt_zero _)
  | fuel + 1, seen, frontier, hfuel, h => by
    rw [flatten_layersFrom_succ] at h ⊢
    by_cases hfrontier : e.waitsOn ∈ frontier
    · exact .inl (List.mem_append_left _ (mem_edgesInto.mpr ⟨he, hfrontier⟩))
    by_cases hseen : e.waitsOn ∈ seen
    · exact .inr ⟨hseen, hfrontier⟩
    left
    obtain ⟨f, hf, hfe⟩ := h.resolve_left hfrontier
    have hdeeper : e.waitsOn ∈ r.next seen frontier ∨ ∃ f ∈ (r.layersFrom fuel
        (seen ++ r.next seen frontier) (r.next seen frontier)).flatten, f.job = e.waitsOn := by
      rcases List.mem_append.mp hf with hf | hf
      · exact .inl (mem_next.mpr ⟨⟨f, hf, hfe⟩, hseen⟩)
      · exact .inr ⟨f, hf, hfe⟩
    have hmore : ∃ k, k ∈ r.next seen frontier := by
      rcases hdeeper with hnext | ⟨f, hf, -⟩
      · exact ⟨_, hnext⟩
      · refine List.exists_mem_of_ne_nil _ fun hnil => ?_
        rw [hnil, layersFrom_nil] at hf
        exact absurd hf List.not_mem_nil
    obtain ⟨k, hk⟩ := hmore
    have hless := length_unseen_next_lt hk
    have hfuel' : (r.unseen (seen ++ r.next seen frontier)).length < fuel := by omega
    have hfound := mem_layersFrom_of_mem he fuel hfuel' hdeeper
    refine List.mem_append_right _ (hfound.resolve_right fun ⟨hold, hnot⟩ => ?_)
    exact (List.mem_append.mp hold).elim hseen hnot

/-! ## 3. What is found -/

/-- **The rows that wait on a job, directly or through others.** -/
theorem mem_dependents_iff {id : JobId} {e : Edge} :
    e ∈ r.dependents id ↔ e ∈ r.edges.all ∧ ReflTransGen r.Names e.waitsOn id := by
  constructor
  · intro h
    obtain ⟨he, k, hk, hek⟩ := mem_of_mem_layersFrom _ h
    exact ⟨he, List.mem_singleton.mp hk ▸ hek⟩
  · rintro ⟨he, hpath⟩
    have hfuel : (r.unseen [id]).length < r.edges.all.length + 1 :=
      Nat.lt_succ_of_le (length_unseen_le _)
    have hfound : ∀ {f : Edge}, f ∈ r.edges.all →
        (f.waitsOn = id ∨ ∃ g ∈ r.dependents id, g.job = f.waitsOn) → f ∈ r.dependents id :=
      fun hf hfrom => (mem_layersFrom_of_mem hf _ hfuel
        (hfrom.imp_left fun hid => List.mem_singleton.mpr hid)).resolve_right
          fun ⟨hin, hout⟩ => hout hin
    -- from `id` back to the row, one row at a time
    generalize hk : e.waitsOn = k at hpath
    induction hpath using ReflTransGen.head_induction_on generalizing e with
    | refl => exact hfound he (.inl hk)
    | @head k l hkl _ ih => exact hfound he (.inr ⟨⟨k, l⟩, ih hkl rfl, hk.symm⟩)

theorem mem_map_job_dependents_iff {id i : JobId} :
    i ∈ (r.dependents id).map Edge.job ↔ TransGen r.Names i id := by
  rw [List.mem_map, TransGen.head'_iff]
  constructor
  · rintro ⟨⟨job, waitsOn⟩, he, rfl⟩
    exact ⟨waitsOn, mem_dependents_iff.mp he⟩
  · rintro ⟨b, hb, hpath⟩
    exact ⟨⟨i, b⟩, mem_dependents_iff.mpr ⟨hb, hpath⟩, rfl⟩

/-- Some jobs, stored or not, and whoever waits on one of them. -/
theorem mem_withDependents_iff {ids : List JobId} {i : JobId} :
    i ∈ r.withDependents ids ↔ ∃ k ∈ ids, ReflTransGen r.Names i k := by
  simp only [withDependents, List.mem_append, mem_firstSeen, List.mem_flatMap,
    mem_map_job_dependents_iff]
  constructor
  · rintro (hi | ⟨⟨k, hk, hik⟩, -⟩)
    · exact ⟨i, hi, .refl⟩
    · exact ⟨k, hk, hik.to_reflTransGen⟩
  · rintro ⟨k, hk, hik⟩
    by_cases hi : i ∈ ids
    · exact .inl hi
    · rcases ReflTransGen.cases_head_iff.mp hik with rfl | ⟨b, hib, hbk⟩
      · exact absurd hk hi
      · exact .inr ⟨⟨k, hk, TransGen.head' hib hbk⟩, hi⟩

theorem map_id_filterMap_get? : ∀ ids : List JobId,
    (ids.filterMap r.get?).map Job.id = ids.filter r.contains
  | [] => rfl
  | i :: rest => by
    cases hi : r.get? i with
    | none => simp [contains, hi, map_id_filterMap_get? rest]
    | some j =>
      have hid : j.id = i := by simpa using List.find?_some hi
      simp [contains, hi, hid, map_id_filterMap_get? rest]

end Roster

namespace Runner

variable {σ : Type} {x : Index σ} {id : JobId}

theorem nodup_casualties (x : Index σ) (id : JobId) : ((casualties x id).map Job.id).Nodup := by
  rw [casualties, Roster.map_id_filterMap_get?]
  exact nodup_firstSeen.filter _

/-- The stored jobs that fall with a job: those that wait on it, directly or through others. -/
theorem mem_casualties_iff (hu : (x.roster.jobs.map Job.id).Nodup) {k : Job} :
    k ∈ casualties x id ↔
      k ∈ x.roster.jobs ∧ k.id ≠ id ∧ TransGen x.roster.Names k.id id := by
  simp only [casualties, List.mem_filterMap, mem_firstSeen, Roster.mem_map_job_dependents_iff,
    List.mem_singleton, Roster.get?, find?_id_eq_some_iff hu]
  constructor
  · rintro ⟨i, ⟨hpath, hne⟩, hk, rfl⟩
    exact ⟨hk, hne, hpath⟩
  · rintro ⟨hk, hne, hpath⟩
    exact ⟨k.id, ⟨hpath, hne⟩, hk, rfl⟩

end Runner

/-! ## 4. Stored rows -/

/-- A stored row says that `a` waits on `b`, whether or not `b` is stored. -/
def Tables.Names (t : Tables) (a b : JobId) : Prop := Edge.mk a b ∈ t.edges

/-- From a job there is a way along stored rows to one of `ids`, or it is one of them. -/
def Tables.LeadsTo (t : Tables) (ids : List JobId) (id : JobId) : Prop :=
  ∃ k ∈ ids, ReflTransGen t.Names id k

theorem InStep.names_eq {r : Roster} {t : Tables} (h : InStep r t) : r.Names = t.Names := by
  funext a b
  rw [eq_iff_iff, Roster.Names, Filed.mem_all, Tables.Names]
  simp only [h.same_edges, List.mem_filter, beq_iff_eq]
  exact ⟨fun ⟨_, he, _⟩ => he, fun he => ⟨a, he, rfl⟩⟩

theorem Tables.leadsTo_singleton_iff {t : Tables} {id i : JobId} (hne : i ≠ id) :
    t.LeadsTo [id] i ↔ TransGen t.Names i id := by
  simp only [LeadsTo, List.mem_singleton, exists_eq_left]
  rw [reflTransGen_iff_eq_or_transGen]
  exact or_iff_right (Ne.symm hne)

/-- Whoever has a row that leads on leads there too. -/
theorem Tables.LeadsTo.head {t : Tables} {ids : List JobId} {a b : JobId} (hab : t.Names a b)
    (h : t.LeadsTo ids b) : t.LeadsTo ids a := by
  obtain ⟨k, hk, hbk⟩ := h
  exact ⟨k, hk, .head hab hbk⟩

end Backlog
