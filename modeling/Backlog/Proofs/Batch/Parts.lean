/-
# A batch can be brought in parts

A batch goes in as a whole or not at all.  It could as well be brought in two parts, one after the
other: the second part then meets the jobs and the rows of the first one as stored, where it would
have met them as part of the same batch.

Nothing that is found wrong with the first part alone is put right by the second, and this is where
the two ways might have differed.  A circle may run through both parts, and through rows of stored
jobs that named jobs of the batch before these existed; but a circle that the first part closes is
still there when the second has come.

* `waitsWith_append`, `cycle?_append_eq_none_iff`: what is swept in the second part is what would
  have been swept in the whole;
* `noneTaken_append_iff`: an id is taken in the whole exactly if it is in one of the parts;
* `insert_in_parts`: **both ways go through together, and leave the same index.**
-/
import Backlog.Proofs.AllOrNothing

namespace Backlog

open Relation

variable {r : Roster} {xs ys : List Submission}

/-! ## 1. What is added -/

namespace Roster

theorem insert_append (r : Roster) (xs ys : List Submission) :
    r.insert (xs ++ ys) = (r.insert xs).insert ys := List.foldl_append

/-- Rows of a batch are filed under the jobs that bring them, and all of them are there. -/
theorem mem_edges_insert {batch : List Submission} {e : Edge} :
    e ∈ (r.insert batch).edges.all ↔ e ∈ r.edges.all ∨ e ∈ batch.flatMap Submission.edges := by
  rw [insert_eq, Filed.mem_all, Filed.mem_all]
  simp only [Filed.rowsOf_foldl_file_batch, List.mem_append, exists_or]
  refine or_congr_right ?_
  simp only [List.mem_flatMap]
  constructor
  · rintro ⟨id, s, hs, he⟩
    by_cases hid : id = s.id
    · exact ⟨s, hs, by simpa [hid] using he⟩
    · simp [hid] at he
  · rintro ⟨s, hs, he⟩
    exact ⟨s.id, s, hs, by simpa using he⟩

end Roster

theorem Tables.append_append (t : Tables) (xs ys : List Submission) :
    t.append (xs ++ ys) = (t.append xs).append ys := by
  simp [Tables.append]

theorem held_jobs_insert {batch : List Submission} {id : JobId} :
    Held (r.insert batch).jobs id ↔ Held r.jobs id ∨ id ∈ batch.map Submission.id := by
  rw [Roster.jobs_insert, held_append_batch]

/-! ## 2. Circles -/

/-- Where the first part has come in, the second meets the graph of the whole. -/
theorem waitsWith_append :
    WaitsWith r.jobs r.edges.all (xs ++ ys)
      = WaitsWith (r.insert xs).jobs (r.insert xs).edges.all ys := by
  funext a b
  have hedge : Edge.mk a b ∈ r.edges.all ++ (xs ++ ys).flatMap Submission.edges ↔
      Edge.mk a b ∈ (r.insert xs).edges.all ++ ys.flatMap Submission.edges := by
    rw [List.flatMap_append, List.mem_append, List.mem_append, List.mem_append,
      Roster.mem_edges_insert, or_assoc]
  have hknown : ∀ id, Held r.jobs id ∨ id ∈ (xs ++ ys).map Submission.id ↔
      Held (r.insert xs).jobs id ∨ id ∈ ys.map Submission.id := by
    intro id
    rw [held_jobs_insert, List.map_append, List.mem_append, or_assoc]
  simp only [WaitsWith, hedge, hknown]

/-- What waits on each other in the first part does so in the whole. -/
theorem WaitsWith.of_prefix {jobs : List Job} {edges : List Edge} {a b : JobId}
    (h : WaitsWith jobs edges xs a b) : WaitsWith jobs edges (xs ++ ys) a b := by
  obtain ⟨hedge, ha, hb⟩ := h
  have hgrow : ∀ id, Held jobs id ∨ id ∈ xs.map Submission.id →
      Held jobs id ∨ id ∈ (xs ++ ys).map Submission.id := by
    intro id
    rw [List.map_append, List.mem_append]
    exact Or.imp_right Or.inl
  refine ⟨?_, hgrow a ha, hgrow b hb⟩
  rw [List.flatMap_append, ← List.append_assoc]
  exact List.mem_append_left _ hedge

/-- A circle that the first part closes is still there when the second has come. -/
theorem Tangled.of_prefix {jobs : List Job} {edges : List Edge} (h : Tangled jobs edges xs) :
    Tangled jobs edges (xs ++ ys) := by
  obtain ⟨id, hcycle⟩ := h
  exact ⟨id, TransGen.mono (fun _ _ => WaitsWith.of_prefix) _ _ hcycle⟩

/-- The sweep of the whole finds nothing if neither of the two sweeps finds anything. -/
theorem Roster.cycle?_append_eq_none_iff :
    r.cycle? (xs ++ ys) = none ↔ r.cycle? xs = none ∧ (r.insert xs).cycle? ys = none := by
  have hwhole : Tangled r.jobs r.edges.all (xs ++ ys) ↔
      Tangled (r.insert xs).jobs (r.insert xs).edges.all ys := by
    rw [Tangled, Tangled, waitsWith_append]
  rw [cycle?_eq_none_iff_not_tangled, cycle?_eq_none_iff_not_tangled,
    cycle?_eq_none_iff_not_tangled, ← hwhole]
  constructor
  · intro h
    exact ⟨fun hxs => h hxs.of_prefix, h⟩
  · rintro ⟨-, h⟩
    exact h

/-! ## 3. Ids that are taken -/

theorem noneTaken_append_iff {taken : List JobId} :
    NoneTaken taken (xs ++ ys) ↔
      NoneTaken taken xs ∧ NoneTaken (taken ++ xs.map Submission.id) ys := by
  simp only [NoneTaken, List.map_append, List.nodup_append, List.mem_append, not_or]
  constructor
  · rintro ⟨⟨hxs, hys, hapart⟩, hnew⟩
    refine ⟨⟨hxs, fun s hs => hnew s (.inl hs)⟩, hys, fun s hs => ⟨hnew s (.inr hs), ?_⟩⟩
    intro hmem
    exact hapart s.id hmem s.id (List.mem_map_of_mem hs) rfl
  · rintro ⟨⟨hxs, hnewx⟩, hys, hnewy⟩
    refine ⟨⟨hxs, hys, ?_⟩, fun s hs => ?_⟩
    · rintro _ hmem _ hs rfl
      obtain ⟨s, hs, hid⟩ := List.mem_map.mp hs
      exact (hnewy s hs).2 (hid ▸ hmem)
    · rcases hs with hs | hs
      · exact hnewx s hs
      · exact (hnewy s hs).1

theorem Tables.map_id_append (t : Tables) (batch : List Submission) :
    (t.append batch).jobs.map Job.id = t.jobs.map Job.id ++ batch.map Submission.id := by
  rw [Tables.append, List.map_append, map_id_batch]

theorem Tables.firstDuplicate_append_eq_none_iff {t : Tables} :
    firstDuplicate (t.jobs.map Job.id) (xs ++ ys) = none ↔
      firstDuplicate (t.jobs.map Job.id) xs = none ∧
        firstDuplicate ((t.append xs).jobs.map Job.id) ys = none := by
  rw [← noneTaken_iff, ← noneTaken_iff, ← noneTaken_iff, Tables.map_id_append, noneTaken_append_iff]

/-! ## 4. The whole and its parts -/

/-- **A batch goes in exactly if its two parts go in one after the other**, and then it does not
matter in which way it came: memory and store are the same, job by job and row by row, whatever the
index held before. -/
theorem Index.insert_in_parts (x z : MemoryIndex) (xs ys : List Submission) :
    x.insert (xs ++ ys) = .ok z ↔ ∃ y, x.insert xs = .ok y ∧ y.insert ys = .ok z := by
  have hholding : x.holding (x.store.inner.append (xs ++ ys)) (x.roster.insert (xs ++ ys))
      = (x.holding (x.store.inner.append xs) (x.roster.insert xs)).holding
          ((x.store.inner.append xs).append ys) ((x.roster.insert xs).insert ys) := by
    rw [Tables.append_append, Roster.insert_append]
    rfl
  rw [insert_eq_ok_iff, Roster.cycle?_append_eq_none_iff, Tables.firstDuplicate_append_eq_none_iff,
    hholding]
  constructor
  · rintro ⟨⟨hcx, hcy⟩, hon, ⟨hdx, hdy⟩, hz⟩
    refine ⟨_, insert_eq_ok_iff.mpr ⟨hcx, hon, hdx, rfl⟩, insert_eq_ok_iff.mpr ?_⟩
    exact ⟨hcy, hon, hdy, hz⟩
  · rintro ⟨y, hy, hz⟩
    obtain ⟨hcx, hon, hdx, rfl⟩ := insert_eq_ok_iff.mp hy
    obtain ⟨hcy, -, hdy, hz⟩ := insert_eq_ok_iff.mp hz
    exact ⟨⟨hcx, hcy⟩, hon, ⟨hdx, hdy⟩, hz⟩

/-- A stored job names one that is yet to come, and the circle is closed only when it does: the
first part goes in, the second does not, and neither does the whole. -/
example :
    let plain : Job := { id := ⟨"a"⟩, factory := "http", created := 1 }
    let x := (Index.fresh .runToCompletion).run
      [.insert [{ job := plain, edges := [⟨⟨"a"⟩, ⟨"b"⟩⟩] }]]
    let xs : List Submission := [{ job := { plain with id := ⟨"c"⟩ }, edges := [⟨⟨"c"⟩, ⟨"a"⟩⟩] }]
    let ys : List Submission := [{ job := { plain with id := ⟨"b"⟩ }, edges := [⟨⟨"b"⟩, ⟨"c"⟩⟩] }]
    (x.insert xs).isOk = true ∧ x.insert (xs ++ ys) = .error (.cycle ⟨"a"⟩) ∧
      ((x.insert xs).bind fun y => y.insert ys) = .error (.cycle ⟨"a"⟩) := by
  refine ⟨?_, ?_, ?_⟩ <;> cbv

end Backlog
