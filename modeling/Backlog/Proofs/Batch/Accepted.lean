/-
# A batch that is accepted can be submitted

A batch is searched for circles twice.  The first search knows only the entries that were given ids;
the second, when the batch is inserted, looks at everything that is stored and everything that is
new.  So a circle could be closed behind the back of the first one: through a stored job, or
through an entry without an id.

* `Batch.Fresh`, `Tables.UnawareOf`: ids that are made up are new, and nothing that is stored has
  heard of the jobs that arrive;
* `not_transGen_self_of_closed`: a circle does not cross a border that cannot be crossed back;
* `not_tangled_of_check`: then no circle is closed.  Stored jobs wait on stored jobs only, and
  nobody waits on an entry without an id;
* `Index.insert_appended`: what an insertion leaves behind, row by row;
* `accepted_batch_inserted`: **a batch that passes its check is submitted, and every job of it is
  stored with its own rows**.
-/
import Backlog.Proofs.AllOrNothing
import Backlog.Proofs.Batch.Check

namespace Backlog

open Relation

/-! ## 1. Circles and borders -/

/-- Nothing leads back from inside, so a circle is inside or outside. -/
theorem not_transGen_self_of_closed {α : Type} {R : α → α → Prop} {P : α → Prop}
    (hclosed : ∀ a b, R a b → P a → P b)
    (hinside : ¬∃ a, TransGen (fun a b => R a b ∧ P a) a a)
    (houtside : ¬∃ a, TransGen (fun a b => R a b ∧ ¬P b) a a) : ¬∃ a, TransGen R a a := by
  have hback : ∀ {a b}, TransGen R a b → ¬P b → ¬P a := by
    intro a b hab
    exact hab.closed' (P := fun a => ¬P a) fun huv hv hu => hv (hclosed _ _ huv hu)
  have hin : ∀ {a b}, TransGen R a b → P a → TransGen (fun a b => R a b ∧ P a) a b := by
    intro a b hab ha
    induction hab with
    | single h => exact .single ⟨h, ha⟩
    | tail hac h ih => exact .tail ih ⟨h, not_not.mp fun hc => hback hac hc ha⟩
  have hout : ∀ {a b}, TransGen R a b → ¬P b → TransGen (fun a b => R a b ∧ ¬P b) a b := by
    intro a b hab hb
    induction hab using TransGen.head_induction_on with
    | single h => exact .single ⟨h, hb⟩
    | head h hcb ih => exact .head ⟨h, hback hcb hb⟩ ih
  rintro ⟨a, hcycle⟩
  by_cases ha : P a
  · exact hinside ⟨a, hin hcycle ha⟩
  · exact houtside ⟨a, hout hcycle ha⟩

/-! ## 2. What the entries turn into -/

/-- If every member of a list can be turned into something, so can the list. -/
theorem exists_mapM_eq_ok {ε α β : Type} {f : α → Except ε β} {Q : α → β → Prop} {l : List α}
    (h : ∀ a ∈ l, ∃ b, f a = .ok b ∧ Q a b) : ∃ m, l.mapM f = .ok m ∧ List.Forall₂ Q l m := by
  induction l with
  | nil => exact ⟨[], rfl, .nil⟩
  | cons a rest ih =>
    obtain ⟨b, hb, hab⟩ := h a List.mem_cons_self
    obtain ⟨m, hm, hrest⟩ := ih fun c hc => h c (List.mem_cons_of_mem _ hc)
    refine ⟨b :: m, ?_, .cons hab hrest⟩
    rw [List.mapM_cons, hb, hm]
    rfl

namespace Submission

theorem foldl_guardedBy : ∀ (names : List String) (s : Submission),
    names.foldl guardedBy s = { s with guards := s.guards ++ names.map (Guard.mk s.id) }
  | [], s => by simp
  | name :: rest, s => by
    rw [List.foldl_cons, foldl_guardedBy rest]
    simp [guardedBy, id]

theorem foldl_waitingOn : ∀ (others : List String) (s : Submission),
    others.foldl (fun s d => s.waitingOn ⟨d⟩) s
      = { s with edges := s.edges ++ others.map fun d => ⟨s.id, ⟨d⟩⟩ }
  | [], s => by simp
  | other :: rest, s => by
    rw [List.foldl_cons, foldl_waitingOn rest]
    simp [waitingOn, id]

end Submission

namespace BatchEntry

/-- The id of the job: the one that is given, or else the one that is made up for it. -/
def jobId (e : BatchEntry) (fresh : JobId) : JobId := e.id?.elim fresh JobId.mk

/-- The job has this id, and its rows are the constraints and the dependencies of the entry, in the
order in which they are written. -/
structure Brings (e : BatchEntry) (id : JobId) (s : Submission) : Prop where
  named : s.id = id
  guards : s.guards = e.constraints.map (Guard.mk id)
  edges : s.edges = e.dependsOn.map fun d => ⟨id, ⟨d⟩⟩

variable {e : BatchEntry} {id : JobId} {s : Submission}

theorem Brings.wellFormed (h : e.Brings id s) : s.WellFormed := by
  refine ⟨fun g hg => ?_, fun w hw => ?_⟩
  · rw [h.guards] at hg
    obtain ⟨name, -, rfl⟩ := List.mem_map.mp hg
    exact h.named.symm
  · rw [h.edges] at hw
    obtain ⟨d, -, rfl⟩ := List.mem_map.mp hw
    exact h.named.symm

theorem submission_brings (he : e.payloadBytes?.isSome = true) (fresh : JobId) (now : Int64) :
    ∃ s, e.submission fresh now = .ok s ∧ e.Brings (e.jobId fresh) s := by
  obtain ⟨payload, hpayload⟩ := Option.isSome_iff_exists.mp he
  simp only [submission, hpayload, Submission.foldl_guardedBy, Submission.foldl_waitingOn]
  exact ⟨_, rfl, rfl, rfl, rfl⟩

end BatchEntry

namespace Batch

variable {b : Batch} {fresh : Nat → JobId} {batch : List Submission}

/-- The ids of the jobs, in order. -/
def jobIds (b : Batch) (fresh : Nat → JobId) : List JobId :=
  b.entries.zipIdx.map fun p => p.1.jobId (fresh p.2)

/-- The jobs are those of the entries, in order. -/
def Brings (b : Batch) (fresh : Nat → JobId) (batch : List Submission) : Prop :=
  List.Forall₂ (fun p s => p.1.Brings (p.1.jobId (fresh p.2)) s) b.entries.zipIdx batch

theorem submissions_brings (hpayloads : ∀ e ∈ b.entries, e.payloadBytes?.isSome = true)
    (fresh : Nat → JobId) (now : Int64) :
    ∃ batch, b.submissions fresh now = .ok batch ∧ b.Brings fresh batch := by
  refine exists_mapM_eq_ok fun p hp => BatchEntry.submission_brings (hpayloads p.1 ?_) _ now
  exact List.mem_of_getElem? (List.mem_zipIdx_iff_getElem?.mp hp)

theorem Brings.ids (h : b.Brings fresh batch) : batch.map Submission.id = b.jobIds fresh := by
  unfold Brings at h
  unfold jobIds
  generalize b.entries.zipIdx = l at h ⊢
  induction h with
  | nil => rfl
  | cons hbrings _ ih => rw [List.map_cons, List.map_cons, hbrings.named, ih]

theorem Brings.wellFormed (h : b.Brings fresh batch) : ∀ s ∈ batch, s.WellFormed := by
  unfold Brings at h
  generalize b.entries.zipIdx = l at h
  induction h with
  | nil => simp
  | cons hbrings _ ih => exact List.forall_mem_cons.mpr ⟨hbrings.wellFormed, ih⟩

theorem Brings.edges (h : b.Brings fresh batch) :
    batch.flatMap Submission.edges = b.entries.zipIdx.flatMap fun p =>
      p.1.dependsOn.map fun d => ⟨p.1.jobId (fresh p.2), ⟨d⟩⟩ := by
  unfold Brings at h
  generalize b.entries.zipIdx = l at h ⊢
  induction h with
  | nil => rfl
  | cons hbrings _ ih => rw [List.flatMap_cons, List.flatMap_cons, hbrings.edges, ih]

/-- Every edge of the batch is a dependency of one of its entries. -/
theorem Brings.exists_entry (h : b.Brings fresh batch) {w : Edge}
    (hw : w ∈ batch.flatMap Submission.edges) :
    ∃ (e : BatchEntry) (i : Nat), b.entries[i]? = some e ∧ w.job = e.jobId (fresh i) ∧
      w.waitsOn.text ∈ e.dependsOn := by
  rw [h.edges] at hw
  obtain ⟨⟨e, i⟩, he, hw⟩ := List.mem_flatMap.mp hw
  obtain ⟨d, hd, rfl⟩ := List.mem_map.mp hw
  exact ⟨e, i, List.mem_zipIdx_iff_getElem?.mp he, rfl, hd⟩

/-! ## 3. Ids that are made up -/

/-- The entry at place `i` has no id. -/
def Unnamed (b : Batch) (i : Nat) : Prop := ∃ e, b.entries[i]? = some e ∧ e.id? = none

/-- The ids that are made up differ from each other and from all that the batch names. -/
structure Fresh (b : Batch) (fresh : Nat → JobId) : Prop where
  distinct : ∀ i j, b.Unnamed i → b.Unnamed j → fresh i = fresh j → i = j
  notGiven : ∀ i, b.Unnamed i → (fresh i).text ∉ b.ids
  notAwaited : ∀ i, b.Unnamed i → ∀ e ∈ b.entries, (fresh i).text ∉ e.dependsOn

/-- An entry was given its id if the batch names it, and else it was given none. -/
theorem id?_eq_ite {e : BatchEntry} {i : Nat} (hfresh : b.Fresh fresh)
    (he : b.entries[i]? = some e) :
    e.id? = if (e.jobId (fresh i)).text ∈ b.ids then some (e.jobId (fresh i)).text else none := by
  unfold BatchEntry.jobId
  cases hid : e.id? with
  | none => exact (if_neg (hfresh.notGiven i ⟨e, he, hid⟩)).symm
  | some id => exact (if_pos (mem_ids.mpr ⟨e, List.mem_of_getElem? he, hid⟩)).symm

theorem nodup_jobIds (hids : b.ids.Nodup) (hfresh : b.Fresh fresh) : (b.jobIds fresh).Nodup := by
  have hpairs : b.entries.Pairwise fun e f => ∀ id, e.id? = some id → f.id? ≠ some id := by
    refine (List.pairwise_filterMap.mp hids).imp fun hne id he hf => ?_
    exact hne id he id hf rfl
  rw [jobIds, List.nodup_iff_pairwise_ne, List.pairwise_map, List.pairwise_iff_getElem]
  intro i j hi hj hij hsame
  rw [List.length_zipIdx] at hi hj
  simp only [List.getElem_zipIdx, Nat.zero_add] at hsame
  have hei : b.entries[i]? = some b.entries[i] := List.getElem?_eq_getElem hi
  have hej : b.entries[j]? = some b.entries[j] := List.getElem?_eq_getElem hj
  have hidi := id?_eq_ite hfresh hei
  have hidj := id?_eq_ite hfresh hej
  rw [hsame] at hidi
  by_cases hgiven : (b.entries[j].jobId (fresh j)).text ∈ b.ids
  · -- both were given this id
    rw [if_pos hgiven] at hidi hidj
    exact List.pairwise_iff_getElem.mp hpairs i j hi hj hij _ hidi hidj
  · -- both got theirs made up
    rw [if_neg hgiven] at hidi hidj
    simp only [BatchEntry.jobId, hidi, hidj, Option.elim_none] at hsame
    have heq : i = j := hfresh.distinct i j ⟨_, hei, hidi⟩ ⟨_, hej, hidj⟩ hsame
    omega

end Batch

/-! ## 4. No circle is closed -/

/-- None of these ids is stored, and no stored row waits on one of them. -/
structure Tables.UnawareOf (t : Tables) (ids : List JobId) : Prop where
  jobs : ∀ id ∈ ids, ¬Held t.jobs id
  edges : ∀ e ∈ t.edges, e.waitsOn ∉ ids

section Circles

variable {b : Batch} {fresh : Nat → JobId} {batch : List Submission} {t : Tables} {u v : JobId}

/-- A stored job waits on stored jobs only. -/
theorem WaitsWith.stored (hnew : t.UnawareOf (batch.map Submission.id))
    (hwf : ∀ s ∈ batch, s.WellFormed) (h : WaitsWith t.jobs t.edges batch u v)
    (hu : Held t.jobs u) : t.Waits u v := by
  obtain ⟨hedge, -, hv⟩ := h
  rcases List.mem_append.mp hedge with hold | harrives
  · exact ⟨hold, hu, hv.resolve_right (hnew.edges _ hold)⟩
  · obtain ⟨s, hs, hw⟩ := List.mem_flatMap.mp harrives
    have hown : u = s.id := (hwf s hs).2 _ hw
    exact absurd hu (hnew.jobs u (hown ▸ List.mem_map.mpr ⟨s, hs, rfl⟩))

/-- Whoever waits on a new job does so by an entry, and that job was given its id. -/
theorem WaitsWith.named (hbrings : b.Brings fresh batch) (hfresh : b.Fresh fresh)
    (hnew : t.UnawareOf (b.jobIds fresh)) (h : WaitsWith t.jobs t.edges batch u v)
    (hv : ¬Held t.jobs v) :
    v.text ∈ b.ids ∧ ∃ (e : BatchEntry) (i : Nat), b.entries[i]? = some e ∧
      u = e.jobId (fresh i) ∧ v.text ∈ e.dependsOn := by
  obtain ⟨hedge, -, hin⟩ := h
  have harrives : v ∈ b.jobIds fresh := hbrings.ids ▸ hin.resolve_left hv
  have hbatch : Edge.mk u v ∈ batch.flatMap Submission.edges :=
    (List.mem_append.mp hedge).resolve_left fun hold => hnew.edges _ hold harrives
  obtain ⟨e, i, he, hu, hd⟩ := hbrings.exists_entry hbatch
  refine ⟨?_, e, i, he, hu, hd⟩
  obtain ⟨⟨f, k⟩, hf, rfl⟩ := List.mem_map.mp harrives
  have hfk : b.entries[k]? = some f := List.mem_zipIdx_iff_getElem?.mp hf
  by_contra hmade
  have hid : f.id? = none := (Batch.id?_eq_ite hfresh hfk).trans (if_neg hmade)
  have hvk : (f.jobId (fresh k)).text = (fresh k).text := by rw [BatchEntry.jobId, hid]; rfl
  exact hfresh.notAwaited k ⟨f, hfk, hid⟩ e (List.mem_of_getElem? he) (hvk ▸ hd)

/-- **No circle is closed by a batch that is accepted.**  A circle would be among stored jobs, where
there is none, or among entries that were given ids, where the check found none. -/
theorem not_tangled_of_check (ht : t.Acyclic) (hcheck : b.check = .ok ())
    (hbrings : b.Brings fresh batch) (hfresh : b.Fresh fresh)
    (hnew : t.UnawareOf (b.jobIds fresh)) : ¬Tangled t.jobs t.edges batch := by
  have hnew' : t.UnawareOf (batch.map Submission.id) := hbrings.ids ▸ hnew
  refine not_transGen_self_of_closed (P := Held t.jobs) (fun u v huv hu => ?_) ?_ ?_
  · exact (huv.stored hnew' hbrings.wellFormed hu).2.2
  · rintro ⟨id, hcycle⟩
    refine ht id (TransGen.mono (fun u v huv => ?_) _ _ hcycle)
    exact huv.1.stored hnew' hbrings.wellFormed huv.2
  · refine not_transGen_self_of_closed (P := fun u => u.text ∈ b.ids) (fun u v huv _ => ?_) ?_ ?_
    · exact (huv.1.named hbrings hfresh hnew huv.2).1
    · rintro ⟨id, hcycle⟩
      refine Batch.acyclic_of_check hcheck id.text (WaitGraph.path_iff_transGen.mpr ?_)
      refine TransGen.lift JobId.text (fun u v huv => ?_) _ _ hcycle
      obtain ⟨hv, e, i, he, rfl, hd⟩ := huv.1.1.named hbrings hfresh hnew huv.1.2
      have hid : e.id? = some (e.jobId (fresh i)).text :=
        (Batch.id?_eq_ite hfresh he).trans (if_pos huv.2)
      exact Batch.mem_waitGraph_edges.mpr ⟨e, List.mem_of_getElem? he, hid, hd, hv⟩
    · rintro ⟨id, hcycle⟩
      obtain ⟨v, huv, -⟩ := TransGen.head'_iff.mp hcycle
      exact huv.2 (huv.1.1.named hbrings hfresh hnew huv.1.2).1

end Circles

/-! ## 5. What an insertion leaves behind -/

/-- Each job of a batch finds its own rows among those of the whole batch, and no others. -/
theorem filter_flatMap_owned {α : Type} {key : α → JobId} {rows : Submission → List α} :
    ∀ {batch : List Submission}, (batch.map Submission.id).Nodup →
      (∀ s ∈ batch, ∀ a ∈ rows s, key a = s.id) → ∀ s ∈ batch,
        (batch.flatMap rows).filter (key · == s.id) = rows s
  | [], _, _ => by simp
  | u :: rest, hids, howned => by
    obtain ⟨hu, hrest⟩ := List.nodup_cons.mp hids
    have hown := filter_owner (howned u List.mem_cons_self)
    intro s hs
    rw [List.flatMap_cons, List.filter_append, hown]
    rcases List.mem_cons.mp hs with rfl | hs
    · have hothers : (rest.flatMap rows).filter (key · == s.id) = [] := by
        refine List.filter_eq_nil_iff.mpr fun a ha => ?_
        obtain ⟨w, hw, haw⟩ := List.mem_flatMap.mp ha
        rw [howned w (List.mem_cons_of_mem _ hw) a haw, beq_iff_eq]
        exact fun heq => hu (heq ▸ List.mem_map.mpr ⟨w, hw, rfl⟩)
      rw [if_pos rfl, hothers, List.append_nil]
    · have hne : s.id ≠ u.id := fun heq => hu (heq ▸ List.mem_map.mpr ⟨s, hs, rfl⟩)
      rw [if_neg hne, List.nil_append]
      exact filter_flatMap_owned hrest (fun w hw => howned w (List.mem_cons_of_mem _ hw)) s hs

/-- Behind rows of others they find their own as well. -/
theorem filter_append_flatMap_owned {α : Type} {key : α → JobId} {rows : Submission → List α}
    {batch : List Submission} {old : List α} (hids : (batch.map Submission.id).Nodup)
    (howned : ∀ s ∈ batch, ∀ a ∈ rows s, key a = s.id)
    (hold : ∀ a ∈ old, ∀ s ∈ batch, key a ≠ s.id) (s : Submission) (hs : s ∈ batch) :
    (old ++ batch.flatMap rows).filter (key · == s.id) = rows s := by
  have hothers : old.filter (key · == s.id) = [] :=
    List.filter_eq_nil_iff.mpr fun a ha => by simpa using hold a ha s hs
  rw [List.filter_append, hothers, List.nil_append]
  exact filter_flatMap_owned hids howned s hs

/-- The batch stands behind what was there before, in its own order, and under the id of each of its
jobs one finds that job and its rows, and no others. -/
structure Appended (x y : MemoryIndex) (batch : List Submission) : Prop where
  tables : y.store.inner = x.store.inner.append batch
  roster : y.roster.jobs = x.roster.jobs ++ batch.map Submission.job
  found : ∀ s ∈ batch, y.roster.submission? s.id = some s
  guards : ∀ s ∈ batch, y.store.inner.guards.filter (·.job == s.id) = s.guards
  edges : ∀ s ∈ batch, y.store.inner.edges.filter (·.job == s.id) = s.edges

theorem Index.insert_appended {x y : MemoryIndex} (hx : Reachable x) {batch : List Submission}
    (hwf : ∀ s ∈ batch, s.WellFormed) (h : x.insert batch = .ok y) : Appended x y batch := by
  have hy : InStep y.roster y.store.inner := (hx.step (c := .insert batch) hwf h).inStep
  obtain ⟨-, -, hd, rfl⟩ := Index.insert_eq_ok_iff.mp h
  obtain ⟨hids, htaken⟩ := noneTaken_iff.mpr hd
  have hothers : ∀ id, Held x.store.inner.jobs id → ∀ s ∈ batch, id ≠ s.id := by
    intro id hid s hs heq
    exact htaken s hs (heq ▸ hid)
  have hguards : ∀ s ∈ batch,
      (x.store.inner.append batch).guards.filter (·.job == s.id) = s.guards :=
    filter_append_flatMap_owned hids (fun s hs => (hwf s hs).1)
      fun g hg => hothers g.job (hx.inStep.guard_owned g hg)
  have hedges : ∀ s ∈ batch,
      (x.store.inner.append batch).edges.filter (·.job == s.id) = s.edges :=
    filter_append_flatMap_owned hids (fun s hs => (hwf s hs).2)
      fun e he => hothers e.job (hx.inStep.edge_owned e he)
  refine ⟨rfl, x.roster.jobs_insert batch, fun s hs => ?_, hguards, hedges⟩
  have hjob : (x.roster.insert batch).get? s.id = some s.job := by
    refine (hy.same_job s.id).trans ((find?_id_eq_some_iff hy.tables_unique).mpr ⟨?_, rfl⟩)
    exact List.mem_append_right _ (List.mem_map.mpr ⟨s, hs, rfl⟩)
  have hg := (hy.same_guards s.id).trans (hguards s hs)
  have he := (hy.same_edges s.id).trans (hedges s hs)
  rw [roster_holding] at hg he ⊢
  rw [Roster.submission?, hjob, Option.map_some, hg, he]

/-! ## 6. The submission -/

/-- **A batch that passes its check is submitted.**  At every time and after every run: if its
payloads have a JSON form, the ids that are made up are new, and nothing that is stored has heard of
its jobs, then the jobs can be made and inserted while writes go through; they are those of the
entries, in order, and each of them is stored with its own rows. -/
theorem accepted_batch_inserted {x : MemoryIndex} (hx : Reachable x)
    (hon : x.store.refusing = false) {b : Batch} (hcheck : b.check = .ok ())
    (hpayloads : ∀ e ∈ b.entries, e.payloadBytes?.isSome = true) {fresh : Nat → JobId}
    (hfresh : b.Fresh fresh) (hnew : x.store.inner.UnawareOf (b.jobIds fresh)) (now : Int64) :
    ∃ batch y, b.submissions fresh now = .ok batch ∧ x.insert batch = .ok y ∧
      b.Brings fresh batch ∧ Appended x y batch := by
  obtain ⟨batch, hbatch, hbrings⟩ := Batch.submissions_brings hpayloads fresh now
  have hfree : ¬Tangled x.roster.jobs x.roster.edges.all batch := by
    rw [hx.inStep.tangled_iff]
    exact not_tangled_of_check hx.acyclic hcheck hbrings hfresh hnew
  have hids : (batch.map Submission.id).Nodup :=
    hbrings.ids ▸ Batch.nodup_jobIds (Batch.nodup_ids_of_check hcheck) hfresh
  have htaken : ∀ s ∈ batch, s.id ∉ x.store.inner.jobs.map Job.id := by
    intro s hs
    exact hnew.jobs s.id (hbrings.ids ▸ List.mem_map.mpr ⟨s, hs, rfl⟩)
  obtain ⟨y, hy⟩ := (Index.insert_answers batch).ok.mpr ⟨hfree, hon, hids, htaken⟩
  exact ⟨batch, y, hbatch, hy, hbrings, Index.insert_appended hx hbrings.wellFormed hy⟩

/-- A stored job that waits for one that never came. -/
def fetching : Submission :=
  Submission.waitingOn { job := { id := ⟨"fetch"⟩, factory := "http", created := 1 } } ⟨"absent"⟩

/-- A batch that waits on it, through an entry that has an id and one that has none. -/
def chainBatch : Batch :=
  { entries :=
      [{ id? := some "parse", factory := "http", constraints := ["disk"], dependsOn := ["fetch"] },
        { factory := "http", dependsOn := ["parse", "absent"], payload? := some (.string "x") },
        { id? := some "load", factory := "http", dependsOn := ["parse", "fetch"] }] }

theorem chainBatch_inserted :
    let x := (Index.fresh .runToCompletion).run [.insert [fetching]]
    chainBatch.check = .ok () ∧
      ∃ batch y, chainBatch.submissions (fun _ => ⟨"made up"⟩) 5 = .ok batch ∧
        x.insert batch = .ok y ∧ Appended x y batch ∧
        y.roster.jobs.map Job.id = [⟨"fetch"⟩, ⟨"parse"⟩, ⟨"made up"⟩, ⟨"load"⟩] := by
  intro x
  have hx : Reachable x := reachable_run .runToCompletion (by decide)
  have hjobs : x.store.inner.jobs = [fetching.job] := by cbv
  have hedges : x.store.inner.edges = fetching.edges := by cbv
  have hcheck : chainBatch.check = .ok () := by cbv
  have hids : chainBatch.jobIds (fun _ => ⟨"made up"⟩)
      = [⟨"parse"⟩, ⟨"made up"⟩, ⟨"load"⟩] := by cbv
  have hplace : ∀ i, chainBatch.Unnamed i → i = 1 := by
    rintro (_ | _ | _ | i) ⟨e, he, hid⟩
    · cases he
      cases hid
    · rfl
    · cases he
      cases hid
    · cases he
  have hfresh : chainBatch.Fresh fun _ => ⟨"made up"⟩ := by
    refine ⟨fun i j hi hj _ => (hplace i hi).trans (hplace j hj).symm, fun _ _ => ?_, fun _ _ => ?_⟩
    · decide
    · decide
  have hpayloads : ∀ e ∈ chainBatch.entries, e.payloadBytes?.isSome = true := by
    simp only [chainBatch, List.forall_mem_cons]
    exact ⟨rfl, by cbv, rfl, by simp⟩
  have hnew : x.store.inner.UnawareOf (chainBatch.jobIds fun _ => ⟨"made up"⟩) := by
    refine ⟨?_, ?_⟩
    · rw [hids, hjobs]
      decide
    · rw [hids, hedges]
      decide
  obtain ⟨batch, y, hbatch, hy, hbrings, happended⟩ :=
    accepted_batch_inserted hx (by cbv) hcheck hpayloads hfresh hnew 5
  refine ⟨hcheck, batch, y, hbatch, hy, happended, ?_⟩
  have hbatchIds : (batch.map Submission.job).map Job.id = batch.map Submission.id := by
    rw [List.map_map]
    rfl
  rw [happended.roster, List.map_append, hbatchIds, hbrings.ids, hids]
  cbv

end Backlog
