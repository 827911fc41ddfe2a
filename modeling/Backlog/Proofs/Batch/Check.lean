/-
# What the check of a batch finds out

The check goes over a batch three times: over the entries and their ids, over the dependencies of
each entry, and over the entries that have ids as a graph.  It is the first pass that makes the
third one right: a sweep is held against the number of entries that have ids, and this is the number
of nodes only because no id was given twice.

* `entryError?_eq_none_iff`, `dependencyFlaw?_eq_none_iff`: what the first and the second pass let
  through;
* `cycleFlaw?_eq_none_iff`: the third lets through the batches whose named entries do not wait on
  each other in a circle, given that their ids are distinct;
* `check_eq_ok_iff`: a batch is accepted if none of the three finds anything;
* `Sensible`, `accepts_sensible_batches`: **the batches that are accepted, without a word about
  passes.**
-/
import Backlog.Config.Batch
import Backlog.Proofs.Graph.Leftover

namespace Backlog

open Relation

namespace Batch

variable {b : Batch}

/-! ## 1. The entries and their ids -/

theorem entryError?_eq_none_iff : ∀ {entries : List BatchEntry} {seen : List String},
    entryError? seen entries = none ↔
      (∀ e ∈ entries, e.factory ≠ "" ∧ e.maxAttempts? ≠ some 0) ∧
        (entries.filterMap BatchEntry.id?).Nodup ∧
          ∀ id ∈ entries.filterMap BatchEntry.id?, id ∉ seen
  | [], seen => by simp [entryError?]
  | e :: rest, seen => by
    unfold entryError?
    by_cases hfactory : e.factory = ""
    · simp [hfactory]
    by_cases hattempts : e.maxAttempts? = some 0
    · simp [hfactory, hattempts]
    cases hid : e.id? with
    | none =>
      have ih := @entryError?_eq_none_iff rest seen
      simp [hfactory, hattempts, hid, ih]
    | some id =>
      by_cases hseen : id ∈ seen
      · simp [hfactory, hattempts, hid, hseen]
      · have ih := @entryError?_eq_none_iff rest (id :: seen)
        have hsplit : (∀ i ∈ rest.filterMap BatchEntry.id?, i ∉ id :: seen) ↔
            id ∉ rest.filterMap BatchEntry.id? ∧ ∀ i ∈ rest.filterMap BatchEntry.id?, i ∉ seen := by
          simp only [List.mem_cons, not_or, forall_and]
          exact and_congr_left fun _ =>
            ⟨fun h hmem => h id hmem rfl, fun h i hi heq => h (heq ▸ hi)⟩
        rw [List.filterMap_cons_some hid, List.nodup_cons]
        simp only [String.isEmpty_iff, hfactory, hattempts, hseen, if_false, ih, hsplit,
          List.forall_mem_cons, ne_eq, not_false_eq_true, true_and]
        tauto

/-! ## 2. The dependencies of an entry -/

theorem dependencyFlaw?_eq_none_iff {e : BatchEntry} : ∀ {deps seen : List String},
    e.dependencyFlaw? seen deps = none ↔
      (∀ d ∈ deps, e.id? ≠ some d) ∧ deps.Nodup ∧ ∀ d ∈ deps, d ∉ seen
  | [], seen => by simp [BatchEntry.dependencyFlaw?]
  | d :: rest, seen => by
    unfold BatchEntry.dependencyFlaw?
    by_cases hself : e.id? = some d
    · simp [hself]
    by_cases hseen : d ∈ seen
    · simp [hself, hseen]
    have ih := @dependencyFlaw?_eq_none_iff e rest (d :: seen)
    rw [if_neg hself, if_neg hseen, ih, List.nodup_cons, List.forall_mem_cons,
      List.forall_mem_cons]
    simp only [List.mem_cons, not_or]
    constructor
    · rintro ⟨hother, hnodup, hnew⟩
      exact ⟨⟨hself, hother⟩, ⟨fun hd => (hnew d hd).1 rfl, hnodup⟩, hseen,
        fun i hi => (hnew i hi).2⟩
    · rintro ⟨⟨-, hother⟩, ⟨hd, hnodup⟩, -, hnew⟩
      refine ⟨hother, hnodup, fun i hi => ⟨?_, hnew i hi⟩⟩
      rintro rfl
      exact hd hi

/-! ## 3. The entries that have ids, as a graph -/

theorem mem_ids {id : String} : id ∈ b.ids ↔ ∃ e ∈ b.entries, e.id? = some id := by
  simp [ids]

theorem mem_waitGraph_edges {a d : String} :
    (a, d) ∈ b.waitGraph.edges ↔ ∃ e ∈ b.entries, e.id? = some a ∧ d ∈ e.dependsOn ∧ d ∈ b.ids := by
  simp only [waitGraph, List.mem_flatMap]
  refine exists_congr fun e => and_congr_right fun _ => ?_
  cases e.id? with
  | none => simp
  | some id =>
    simp only [List.mem_map, List.mem_filter, List.contains_iff_mem, Prod.mk.injEq,
      Option.some.injEq]
    constructor
    · rintro ⟨d', ⟨hd, hids⟩, rfl, rfl⟩
      exact ⟨rfl, hd, hids⟩
    · rintro ⟨rfl, hd, hids⟩
      exact ⟨d, ⟨hd, hids⟩, rfl, rfl⟩

theorem waitGraph_wellFormed (hids : b.ids.Nodup) : b.waitGraph.WellFormed where
  unique := hids
  inside := by
    rintro ⟨a, d⟩ hedge
    obtain ⟨e, he, hid, -, hd⟩ := mem_waitGraph_edges.mp hedge
    exact ⟨mem_ids.mpr ⟨e, he, hid⟩, hd⟩

/-- The sweep of a batch in which no id is given twice finds every circle, and nothing else. -/
theorem cycleFlaw?_eq_none_iff (hids : b.ids.Nodup) :
    b.cycleFlaw? = none ↔ b.waitGraph.Acyclic := by
  rw [← WaitGraph.releasedCount_eq_iff (waitGraph_wellFormed hids)]
  unfold cycleFlaw?
  split
  · next h => exact iff_of_true rfl h
  · next h => exact iff_of_false (by simp) h

/-! ## 4. The whole check -/

theorem check_eq_ok_iff :
    b.check = .ok () ↔
      entryError? [] b.entries = none ∧ (∀ e ∈ b.entries, e.dependencyFlaw? [] e.dependsOn = none) ∧
        b.cycleFlaw? = none := by
  rw [← List.findSome?_eq_none_iff]
  unfold check
  cases entryError? [] b.entries with
  | some e => simp
  | none =>
    cases b.entries.findSome? fun e => e.dependencyFlaw? [] e.dependsOn with
    | some flaw => simp
    | none => cases b.cycleFlaw? <;> simp

/-- A named entry waits on another one by a dependency.  Dependencies on ids that the batch does not
give, and those of entries without an id, are not counted. -/
def Awaits (b : Batch) (id on : String) : Prop :=
  ∃ e ∈ b.entries, e.id? = some id ∧ on ∈ e.dependsOn ∧ on ∈ b.ids

/-- A batch that makes sense. -/
structure Sensible (b : Batch) : Prop where
  factories : ∀ e ∈ b.entries, e.factory ≠ ""
  attempts : ∀ e ∈ b.entries, e.maxAttempts? ≠ some 0
  distinct : b.ids.Nodup
  notItself : ∀ e ∈ b.entries, ∀ id, e.id? = some id → id ∉ e.dependsOn
  once : ∀ e ∈ b.entries, e.dependsOn.Nodup
  noCircle : ∀ id, ¬TransGen b.Awaits id id

theorem acyclic_waitGraph_iff : b.waitGraph.Acyclic ↔ ∀ id, ¬TransGen b.Awaits id id := by
  have hedges : (fun a d => (a, d) ∈ b.waitGraph.edges) = b.Awaits :=
    funext fun a => funext fun d => propext mem_waitGraph_edges
  simp only [WaitGraph.Acyclic, WaitGraph.OnCycle, WaitGraph.path_iff_transGen, hedges]

/-- **The check accepts the batches that make sense, and no others.** -/
theorem accepts_sensible_batches (b : Batch) : b.check = .ok () ↔ b.Sensible := by
  rw [check_eq_ok_iff, entryError?_eq_none_iff]
  simp only [dependencyFlaw?_eq_none_iff, List.not_mem_nil, not_false_eq_true, implies_true,
    and_true]
  constructor
  · rintro ⟨⟨hentries, hids⟩, hdeps, hcycle⟩
    exact
      { factories := fun e he => (hentries e he).1
        attempts := fun e he => (hentries e he).2
        distinct := hids
        notItself := fun e he id hid hmem => (hdeps e he).1 id hmem hid
        once := fun e he => (hdeps e he).2
        noCircle := acyclic_waitGraph_iff.mp ((cycleFlaw?_eq_none_iff hids).mp hcycle) }
  · intro h
    refine ⟨⟨fun e he => ⟨h.factories e he, h.attempts e he⟩, h.distinct⟩, fun e he => ?_, ?_⟩
    · exact ⟨fun d hd hid => h.notItself e he d hid hd, h.once e he⟩
    · exact (cycleFlaw?_eq_none_iff h.distinct).mpr (acyclic_waitGraph_iff.mpr h.noCircle)

/-- Whoever is named waits on somebody outside the batch, and so does an entry without an id: this
is accepted.  If the one outside gets into the batch, it closes a circle. -/
example :
    let a : BatchEntry := { id? := some "a", factory := "http", dependsOn := ["b", "c"] }
    let b : BatchEntry := { id? := some "b", factory := "http", dependsOn := ["c"] }
    let loose : BatchEntry := { factory := "http", dependsOn := ["a", "c"] }
    let c : BatchEntry := { id? := some "c", factory := "http", dependsOn := ["a"] }
    Batch.check ⟨[a, b, loose]⟩ = .ok () ∧
      Batch.check ⟨[a, b, loose, c]⟩ = .error (.invalid (.cycle ["a", "b", "c"])) := by
  cbv

/-- No id is given twice in a batch that is accepted. -/
theorem nodup_ids_of_check (h : b.check = .ok ()) : b.ids.Nodup :=
  (entryError?_eq_none_iff.mp (check_eq_ok_iff.mp h).1).2.1

/-- Its named entries do not wait on each other in a circle. -/
theorem acyclic_of_check (h : b.check = .ok ()) : b.waitGraph.Acyclic :=
  (cycleFlaw?_eq_none_iff (nodup_ids_of_check h)).mp (check_eq_ok_iff.mp h).2.2

end Batch

end Backlog
