/-
# Dropping jobs together with all that wait on them

There are two ways to drop jobs with all that wait on them: the command that deletes jobs, and a
runner that gives a job up while failures cascade.  Each collects the jobs that fall in its own way
and then deletes them together.  Both come to the same: whoever leads to one of the jobs along
stored rows goes, and nobody who stays had a row that named one of them.

* `Tables.Felled`: some ids that were collected are those of the jobs that lead to `ids`.  A row of
  a job that stays cannot name one of them (`Felled.edge_kept`), or else that job would lead there
  too;
* `Culled`: what is left of an index, said by ways along rows and not by what was collected;
* `cascade_exact`: **that both ways leave exactly that**, and who is announced and told when a job
  is given up.
-/
import Backlog.Cli
import Backlog.Proofs.Attempt
import Backlog.Proofs.Graph.Dependents

namespace Backlog

open Relation

/-! ## 1. Who is collected -/

/-- `all` are the jobs that lead to one of `ids`, and perhaps some that lead there without being
stored. -/
structure Tables.Felled (t : Tables) (ids all : List JobId) : Prop where
  sound : ∀ id ∈ all, t.LeadsTo ids id
  complete : ∀ id, Held t.jobs id → t.LeadsTo ids id → id ∈ all

namespace Tables.Felled

variable {t : Tables} {ids all : List JobId}

theorem mem_iff (h : t.Felled ids all) {id : JobId} (hheld : Held t.jobs id) :
    id ∈ all ↔ t.LeadsTo ids id := ⟨h.sound id, h.complete id hheld⟩

theorem mem_jobs_iff (h : t.Felled ids all) (j : Job) :
    j ∈ (t.delete all).jobs ↔ j ∈ t.jobs ∧ ¬t.LeadsTo ids j.id := by
  simp only [Tables.delete, List.mem_filter, Bool.not_eq_true', List.contains_eq_mem,
    decide_eq_false_iff_not]
  exact and_congr_right fun hj => not_congr (h.mem_iff (List.mem_map.mpr ⟨j, hj, rfl⟩))

theorem guards_kept (h : t.Felled ids all) {id : JobId} (hn : ¬t.LeadsTo ids id) :
    (t.delete all).guards.filter (·.job == id) = t.guards.filter (·.job == id) := by
  rw [Tables.delete, InStep.filter_dropped, if_neg fun hid => hn (h.sound id hid)]

/-- A row of a job that stays names nobody who goes. -/
theorem edge_kept (h : t.Felled ids all) {e : Edge} (he : e ∈ t.edges)
    (hn : ¬t.LeadsTo ids e.job) : e ∈ (t.delete all).edges := by
  have hjob : e.job ∉ all := fun hid => hn (h.sound _ hid)
  have hwaitsOn : e.waitsOn ∉ all := fun hid => hn (LeadsTo.head he (h.sound _ hid))
  simp [Tables.delete, he, hjob, hwaitsOn]

theorem edges_kept (h : t.Felled ids all) {id : JobId} (hn : ¬t.LeadsTo ids id) :
    (t.delete all).edges.filter (·.job == id) = t.edges.filter (·.job == id) := by
  rw [Tables.delete, List.filter_filter]
  refine List.filter_congr fun e he => ?_
  by_cases hid : e.job = id
  · have hkept := (List.mem_filter.mp (h.edge_kept he (hid ▸ hn))).2
    simp only [hid, beq_self_eq_true, Bool.true_and] at hkept ⊢
    exact hkept
  · simp [hid]

variable {r : Roster}

theorem guard_gone (h : t.Felled ids all) (hs : InStep r t) {g : Guard}
    (hg : g ∈ (t.delete all).guards) : ¬t.LeadsTo ids g.job := by
  obtain ⟨hg, hout⟩ := List.mem_filter.mp hg
  rw [← h.mem_iff (hs.guard_owned g hg)]
  simpa using hout

theorem edge_gone (h : t.Felled ids all) (hs : InStep r t) {e : Edge}
    (he : e ∈ (t.delete all).edges) : ¬t.LeadsTo ids e.job ∧ ¬t.LeadsTo ids e.waitsOn := by
  obtain ⟨he, hout⟩ := List.mem_filter.mp he
  have hjob : ¬t.LeadsTo ids e.job := by
    rw [← h.mem_iff (hs.edge_owned e he)]
    simp only [Bool.and_eq_true, Bool.not_eq_true', List.contains_eq_mem,
      decide_eq_false_iff_not] at hout
    exact hout.1
  exact ⟨hjob, fun hl => hjob (LeadsTo.head he hl)⟩

end Tables.Felled

/-! ## 2. What is left -/

section

variable {σ : Type} [Storage σ] [Tabular σ]

/-- `y` is `x` without everybody who leads to one of `ids`. -/
structure Culled (x y : Index σ) (ids : List JobId) : Prop where
  jobs_sublist : y.roster.jobs.Sublist x.roster.jobs
  stored_sublist : y.stored.jobs.Sublist x.stored.jobs
  mem_jobs_iff : ∀ j, j ∈ y.roster.jobs ↔ j ∈ x.roster.jobs ∧ ¬x.stored.LeadsTo ids j.id
  mem_stored_iff : ∀ j, j ∈ y.stored.jobs ↔ j ∈ x.stored.jobs ∧ ¬x.stored.LeadsTo ids j.id
  /-- Whoever stays keeps all rows, in memory and in the store. -/
  guards_kept : ∀ id, ¬x.stored.LeadsTo ids id →
    y.roster.guards.rowsOf id = x.roster.guards.rowsOf id ∧
      y.stored.guards.filter (·.job == id) = x.stored.guards.filter (·.job == id)
  edges_kept : ∀ id, ¬x.stored.LeadsTo ids id →
    y.roster.edges.rowsOf id = x.roster.edges.rowsOf id ∧
      y.stored.edges.filter (·.job == id) = x.stored.edges.filter (·.job == id)
  /-- No row is left of whoever goes, and none that names it. -/
  guards_gone : ∀ id, x.stored.LeadsTo ids id →
    y.roster.guards.rowsOf id = [] ∧ ∀ g ∈ y.stored.guards, g.job ≠ id
  edges_gone : ∀ id, x.stored.LeadsTo ids id →
    y.roster.edges.rowsOf id = [] ∧ ∀ e ∈ y.stored.edges, e.job ≠ id ∧ e.waitsOn ≠ id

variable {x y : Index σ} {ids all : List JobId}

theorem Culled.of_dropped (hs : InStep x.roster x.stored) (hall : x.stored.Felled ids all)
    (hd : Dropped x y all) : Culled x y ids := by
  obtain ⟨hroster, hstored⟩ := Index.eq_of_onTables hd.index
  have hleft : InStep y.roster y.stored := hd.inStep hs
  have hguards : ∀ id, ¬x.stored.LeadsTo ids id →
      y.stored.guards.filter (·.job == id) = x.stored.guards.filter (·.job == id) := fun id hn => by
    rw [hstored, hall.guards_kept hn]
  have hedges : ∀ id, ¬x.stored.LeadsTo ids id →
      y.stored.edges.filter (·.job == id) = x.stored.edges.filter (·.job == id) := fun id hn => by
    rw [hstored, hall.edges_kept hn]
  have hguard : ∀ g ∈ y.stored.guards, ¬x.stored.LeadsTo ids g.job := fun g hg =>
    hall.guard_gone hs (hstored ▸ hg)
  have hedge : ∀ e ∈ y.stored.edges,
      ¬x.stored.LeadsTo ids e.job ∧ ¬x.stored.LeadsTo ids e.waitsOn := fun e he =>
    hall.edge_gone hs (hstored ▸ he)
  refine ⟨?_, ?_, fun j => ?_, fun j => ?_, fun id hn => ?_, fun id hn => ?_, fun id hl => ?_,
    fun id hl => ?_⟩
  · rw [hroster]
    exact List.filter_sublist
  · rw [hstored]
    exact List.filter_sublist
  · rw [hleft.mem_iff, hs.mem_iff, hstored, hall.mem_jobs_iff]
  · rw [hstored, hall.mem_jobs_iff]
  -- what a roster files under an id is what the tables hold of it, before and after
  · exact ⟨by rw [hleft.same_guards, hs.same_guards, hguards id hn], hguards id hn⟩
  · exact ⟨by rw [hleft.same_edges, hs.same_edges, hedges id hn], hedges id hn⟩
  · have hnone : ∀ g ∈ y.stored.guards, g.job ≠ id := by
      rintro g hg rfl
      exact hguard g hg hl
    exact ⟨by rw [hleft.same_guards]; simpa using hnone, hnone⟩
  · have hnone : ∀ e ∈ y.stored.edges, e.job ≠ id ∧ e.waitsOn ≠ id := by
      intro e he
      constructor
      · rintro rfl
        exact (hedge e he).1 hl
      · rintro rfl
        exact (hedge e he).2 hl
    exact ⟨by rw [hleft.same_edges]; simpa using fun e he => (hnone e he).1, hnone⟩

end

/-! ## 3. Both ways of collecting them -/

section

variable {r : Roster} {t : Tables}

theorem InStep.felled_withDependents (hs : InStep r t) (ids : List JobId) :
    t.Felled ids (r.withDependents ids) := by
  have hmem : ∀ id, id ∈ r.withDependents ids ↔ t.LeadsTo ids id := fun id => by
    rw [Roster.mem_withDependents_iff, hs.names_eq, Tables.LeadsTo]
  exact ⟨fun id => (hmem id).mp, fun id _ => (hmem id).mpr⟩

variable {σ : Type} [Storage σ] [Tabular σ] {x : Index σ}

/-- Who falls with a job, said by ways along stored rows. -/
theorem Runner.mem_casualties_iff_leadsTo (hs : InStep x.roster x.stored) {id : JobId} {k : Job} :
    k ∈ casualties x id ↔ k ∈ x.roster.jobs ∧ k.id ≠ id ∧ x.stored.LeadsTo [id] k.id := by
  rw [mem_casualties_iff hs.roster_unique, hs.names_eq]
  exact and_congr_right fun _ => and_congr_right fun hne =>
    (Tables.leadsTo_singleton_iff hne).symm

theorem InStep.felled_casualties (hs : InStep x.roster x.stored) (id : JobId) :
    x.stored.Felled [id] (id :: (Runner.casualties x id).map Job.id) := by
  constructor
  · intro i hi
    rcases List.mem_cons.mp hi with rfl | hi
    · exact ⟨i, List.mem_singleton_self i, .refl⟩
    · obtain ⟨k, hk, rfl⟩ := List.mem_map.mp hi
      exact ((Runner.mem_casualties_iff_leadsTo hs).mp hk).2.2
  · intro i hheld hl
    by_cases hid : i = id
    · exact hid ▸ List.mem_cons_self
    · obtain ⟨k, hk, rfl⟩ := List.mem_map.mp hheld
      refine List.mem_cons_of_mem _ (List.mem_map.mpr ⟨k, ?_, rfl⟩)
      exact (Runner.mem_casualties_iff_leadsTo hs).mpr ⟨hs.mem_iff.mpr hk, hid, hl⟩

end

/-- **Both ways of dropping jobs with all that wait on them leave the same**, whether or not the
jobs are stored.  When a job is given up, whoever falls with it is announced once, and told once if
it can be decoded; `Runner.fallen` are they, each once. -/
theorem cascade_exact {x : MemoryIndex} (h : Reachable x) (hon : x.store.refusing = false) :
    (∀ ids, ∃ y, (Cli.delete ids true x).2 = .ok y ∧ Culled x y ids) ∧
    ∀ (r : Runner) (j : Job) (live : Option Hooks) (fatal : Bool) (reason : String)
      (outcome : Outcome) (d : Desk (Switched Tables)),
      r.cascade = true → r.Calm → (∀ h, live = some h → h.onFailure.panics = false) →
      d.index = x →
      ∃ d', r.fail j live fatal reason outcome d = (.done outcome, d') ∧
        Culled x d'.index [j.id] ∧
        GivenUp r j fatal reason (live.or (r.freshHooks j)) d d' ∧
        ((r.fallen x j).map Job.id).Nodup ∧
        ∀ k, k ∈ r.fallen x j ↔
          k ∈ x.roster.jobs ∧ k.id ≠ j.id ∧ x.stored.LeadsTo [j.id] k.id := by
  have hs : InStep x.roster x.stored := h.inStep
  have hdelete : ∀ all, ∃ y, x.delete all = .ok y := fun all =>
    ⟨_, Index.delete_eq_ok_iff.mpr ⟨hon, rfl⟩⟩
  constructor
  · intro ids
    obtain ⟨y, hy⟩ := hdelete (x.roster.withDependents ids)
    have hcli : (Cli.delete ids true x).2 = .ok y := by simp [Cli.delete, Cli.targets, hy]
    exact ⟨y, hcli, .of_dropped hs (hs.felled_withDependents ids) (Index.delete_dropped hy)⟩
  · intro r j live fatal reason outcome d hcascade hr hlive hx
    have hfallen : r.fallen x j = Runner.casualties x j.id := if_pos hcascade
    obtain ⟨y, hy⟩ := hdelete (j.id :: (r.fallen x j).map Job.id)
    rcases Runner.fail_eq hr j live fatal reason outcome d hlive with ⟨e, he⟩ | ⟨d', hd', hgiven⟩
    · have hdown := Runner.fail_downfall r j live fatal reason outcome d
      rw [he] at hdown
      have hrefused := hdown.delete_error
      rw [hx, hy] at hrefused
      exact absurd hrefused (by simp)
    · refine ⟨d', hd', ?_, hgiven, ?_, fun k => ?_⟩
      · have hdropped := hgiven.index
        rw [hx, hfallen] at hdropped
        exact .of_dropped hs (hs.felled_casualties j.id) hdropped
      · rw [hfallen]
        exact Runner.nodup_casualties x j.id
      · rw [hfallen]
        exact Runner.mem_casualties_iff_leadsTo hs

/-- Two jobs wait on `fetch`, and `report` waits on both of them; `keep` has rows of its own. -/
def diamond : MemoryIndex :=
  let job (name : String) (created : Int64) : Job := { id := ⟨name⟩, factory := "http", created }
  (Index.fresh .runToCompletion).run
    [.insert [{ job := job "fetch" 1 },
      Submission.waitingOn { job := job "parse" 2 } ⟨"fetch"⟩,
      Submission.waitingOn { job := job "scan" 3 } ⟨"fetch"⟩,
      Submission.waitingOn (Submission.waitingOn { job := job "report" 4 } ⟨"parse"⟩) ⟨"scan"⟩,
      Submission.waitingOn (Submission.guardedBy { job := job "keep" 5 } "disk") ⟨"absent"⟩]]

theorem diamond_reachable : Reachable diamond :=
  reachable_run .runToCompletion (by decide)

/-- Whose jobs drag down whoever waits on them. -/
def toppling : Runner := { Runner.insistent with cascade := true }

def fetch : Job := { id := ⟨"fetch"⟩, factory := "http", created := 1 }

/-- Deleting `fetch` and giving it up leave `keep` alone. -/
theorem cascade_exact_diamond :
    Reachable diamond ∧ diamond.store.refusing = false ∧ toppling.cascade = true ∧ toppling.Calm ∧
      (∃ y, (Cli.delete [fetch.id] true diamond).2 = .ok y ∧ Culled diamond y [fetch.id]) ∧
      ∃ d', toppling.fail fetch none false "down" .failure { index := diamond }
          = (.done .failure, d') ∧
        Culled diamond d'.index [fetch.id] ∧ d'.index.roster.jobs.map Job.id = [⟨"keep"⟩] ∧
        d'.events = [.failed fetch.id false "down", .cancelled ⟨"parse"⟩ fetch.id,
          .cancelled ⟨"scan"⟩ fetch.id, .cancelled ⟨"report"⟩ fetch.id] := by
  have hcalm : toppling.Calm := Runner.insistent_calm
  obtain ⟨hdelete, hfail⟩ := cascade_exact diamond_reachable rfl
  obtain ⟨d', hd', hculled, hgiven, -, -⟩ := hfail toppling fetch none false "down" .failure
    { index := diamond } rfl hcalm (by simp) rfl
  have hids : (Runner.casualties diamond ⟨"fetch"⟩).map Job.id
      = [⟨"parse"⟩, ⟨"scan"⟩, ⟨"report"⟩] := by cbv
  have hfallen : toppling.fallen diamond fetch = Runner.casualties diamond ⟨"fetch"⟩ := rfl
  have hdropped := hgiven.index
  have hevents := hgiven.events
  rw [hfallen] at hdropped hevents
  refine ⟨diamond_reachable, rfl, rfl, hcalm, hdelete _, d', hd', hculled, ?_, ?_⟩
  · rw [(Index.eq_of_onTables hdropped.index).1, hids]
    cbv
  · have hcancelled : ∀ fallen : List Job, (fallen.map fun k => Event.cancelled k.id fetch.id)
        = (fallen.map Job.id).map (.cancelled · fetch.id) := by simp
    rw [hevents, hcancelled, hids]
    rfl

end Backlog
