/-
# The search for circles does not depend on where it begins

The nodes and the edges of a waiting graph are kept in tables that have no order of their own.
Whoever sweeps the graph has to list them in some order, and this decides which node is released
first, which waiter is told first, and in which order the nodes come that are left behind.  It does
not decide which nodes these are.

* `WaitGraph.Enumeration`: the orders in which a sweep may come across nodes and edges, and its
  sweep;
* `WaitGraph.Enumeration.swept?_eq_some`: whatever they are, the sweep leaves behind who waits on a
  cycle;
* `cycle?_of_any_enumeration`: **a batch is let through exactly if it closes no circle, and the job
  that is named otherwise is the same for every order**.
-/
import Backlog.Proofs.AllOrNothing

namespace Backlog

namespace WaitGraph

variable {α : Type} {g : WaitGraph α}

/-! ## 1. Orders -/

/-- Orders in which a sweep comes across what is in a graph: the nodes when their counters are set
up and read off, the nodes again when those are looked for that wait on nothing, and the edges. -/
structure Enumeration (g : WaitGraph α) where
  counted : List α
  queued : List α
  listed : List (α × α)
  counted_perm : counted.Perm g.nodes
  queued_perm : queued.Perm g.nodes
  listed_perm : listed.Perm g.edges

namespace Enumeration

/-- The graph, as it is listed. -/
def graph (e : g.Enumeration) : WaitGraph α := { nodes := e.counted, edges := e.listed }

theorem graph_wellFormed (hg : g.WellFormed) (e : g.Enumeration) : e.graph.WellFormed where
  unique := e.counted_perm.nodup_iff.mpr hg.unique
  inside := by
    intro edge hedge
    obtain ⟨hleft, hright⟩ := hg.inside edge (e.listed_perm.mem_iff.mp hedge)
    exact ⟨e.counted_perm.mem_iff.mpr hleft, e.counted_perm.mem_iff.mpr hright⟩

theorem graph_path_iff (e : g.Enumeration) {a b : α} : e.graph.Path a b ↔ g.Path a b := by
  have hedges : (fun a b => (a, b) ∈ e.graph.edges) = fun a b => (a, b) ∈ g.edges := by
    funext a b
    exact propext e.listed_perm.mem_iff
  rw [path_iff_transGen, path_iff_transGen, hedges]

theorem graph_snared_iff (e : g.Enumeration) {a : α} : e.graph.Snared a ↔ g.Snared a := by
  simp only [Snared, OnCycle, graph_path_iff]

variable [DecidableEq α]

/-- Every counter at the number of edges, and the nodes that wait on nothing ready, in the order in
which they are looked for. -/
def start (e : g.Enumeration) : Sweep α :=
  { e.graph.start with ready := e.queued.filter fun a => e.graph.inDegree a = 0 }

/-- The sweep that follows these orders. -/
def swept? (e : g.Enumeration) : Option (Sweep α) := e.graph.sweep? e.counted.length e.start

end Enumeration

/-! ## 2. What is left behind in any order -/

variable [DecidableEq α] {s : Sweep α} {ready : List α}

theorem Sweep.Sound.of_ready_perm (h : s.Sound g []) (hp : ready.Perm s.ready) :
    Sweep.Sound g { s with ready } [] where
  counter := h.counter
  idle a ha := h.idle a ((hp.append_right _).mem_iff.mp ha)
  distinct := (hp.append_right _).nodup_iff.mpr h.distinct
  known a ha := h.known a (hp.mem_iff.mp ha)
  cleared := h.cleared

theorem Sweep.Thorough.of_ready_perm (h : s.Thorough g []) (hp : ready.Perm s.ready) :
    Sweep.Thorough g { s with ready } [] where
  counted := h.counted
  found a ha hzero := (hp.append_right _).mem_iff.mpr (h.found a ha hzero)
  known := h.known

namespace Enumeration

theorem start_sound (hg : g.WellFormed) (e : g.Enumeration) : e.start.Sound e.graph [] :=
  (WaitGraph.start_sound (e.graph_wellFormed hg)).of_ready_perm
    ((e.queued_perm.trans e.counted_perm.symm).filter _)

theorem start_thorough (e : g.Enumeration) : e.start.Thorough e.graph [] :=
  WaitGraph.start_thorough.of_ready_perm ((e.queued_perm.trans e.counted_perm.symm).filter _)

/-- No counter is lowered below zero on the way, and the end is reached. -/
theorem swept?_ended (hg : g.WellFormed) (e : g.Enumeration) :
    ∃ s, e.swept? = some s ∧ s.Ended e.graph :=
  sweep?_ended (e.graph_wellFormed hg) (e.start_sound hg) e.start_thorough
    (Nat.le_add_right e.counted.length _)

/-- Whoever waits on a cycle is left behind. -/
theorem swept?_eq_some (hg : g.WellFormed) (e : g.Enumeration) :
    ∃ s, e.swept? = some s ∧ ∀ a, a ∈ s.blocked ↔ g.Snared a := by
  obtain ⟨s, hs, hended⟩ := e.swept?_ended hg
  refine ⟨s, hs, fun a => ?_⟩
  rw [hended.mem_blocked_iff_snared (e.graph_wellFormed hg), e.graph_snared_iff]

end Enumeration

end WaitGraph

/-! ## 3. The job that is named -/

/-- The least id depends on which ids there are, and on nothing else. -/
theorem leastId?_congr {l l' : List JobId} (h : ∀ i, i ∈ l ↔ i ∈ l') :
    leastId? l = leastId? l' := by
  apply Option.ext
  intro i
  simp only [leastId?_eq_some_iff, h]

/-- **A batch is let through exactly if it closes no circle, and otherwise the job that is named is
the same whatever comes first.**  This holds of every roster and every batch: rows may name jobs
that are not there, be filed twice, or name their own job. -/
theorem cycle?_of_any_enumeration (r : Roster) (batch : List Submission) :
    (r.cycle? batch = none ↔ ¬Tangled r.jobs r.edges.all batch) ∧
      ∀ e : (r.waitGraph batch).Enumeration,
        (e.swept?.map fun s => leastId? s.blocked) = some (r.cycle? batch) := by
  refine ⟨?_, fun e => ?_⟩
  · rw [← Roster.cycle?_eq_some_iff, ← Option.ne_none_iff_exists', ne_eq, not_not]
  · have hg : (r.waitGraph batch).WellFormed := r.waitGraph_wellFormed batch
    obtain ⟨s, hs, hblocked⟩ := e.swept?_eq_some hg
    have hsame : ∀ i, i ∈ s.blocked ↔ i ∈ (r.waitGraph batch).leftovers := by
      intro i
      rw [hblocked, WaitGraph.mem_leftovers_iff hg]
    rw [hs, Option.map_some, leastId?_congr hsame, Roster.cycle?]

end Backlog
