/-
# No counter of a sweep is lowered below zero

A counter starts at the number of edges on which its node waits, and each of these edges lowers it
when the node it leads to is released.  So there is always something left to take away, as long as
no node is released twice; and none is, since a node becomes ready only once, when its counter
comes to zero.  Neither depends on which of the ready nodes is released next, or on which of its
waiters is told first; nor on the graph, in which edges may be repeated or lead back to where they
start.

* `Reaches`: what a sweep can come to, one release and one lowered counter at a time and in any
  order;
* `Reaches.kept`: what each of these steps keeps.  The edges into released nodes are those that have
  lowered a counter and those that are about to;
* `InBounds`, `sweptInBounds`: counters above zero, no node twice, no more releases than nodes and
  no more lowered counters than edges, at every moment and up to the end;
* `counters_never_underflow`: **this holds of the sweep that is made before an insertion, and of the
  one by which a batch is checked**.
-/
import Backlog.Proofs.Batch.Check
import Backlog.Proofs.Graph.Enumeration

namespace Backlog

namespace WaitGraph

variable {α : Type} [DecidableEq α] {g : WaitGraph α} {s₀ s s' : Sweep α} {n k : Nat}
  {pending : List α}

/-! ## 1. One step at a time -/

/-- What a sweep can come to from `s₀`, with `n` releases and `k` lowered counters, when the nodes of
`pending` have yet to learn of the latest release.  Any of the ready nodes may be released next, and
those that wait on it may be told in any order. -/
inductive Reaches (g : WaitGraph α) (s₀ : Sweep α) : Nat → Nat → Sweep α → List α → Prop
  | start : Reaches g s₀ 0 0 s₀ []
  | release {n k : Nat} {s : Sweep α} {b : α} {rest pending : List α} :
      Reaches g s₀ n k s [] → s.ready.Perm (b :: rest) → pending.Perm (g.waiters b) →
        Reaches g s₀ (n + 1) k { s with ready := rest, released := b :: s.released } pending
  | lower {n k : Nat} {s s' : Sweep α} {a : α} {pending : List α} :
      Reaches g s₀ n k s (a :: pending) → s.lower? a = some s' → Reaches g s₀ n (k + 1) s' pending

namespace Reaches

theorem lowerAll? : ∀ (pending : List α) {k : Nat} {s : Sweep α}, g.Reaches s₀ n k s pending →
    s.lowerAll? pending = some s' → g.Reaches s₀ n (k + pending.length) s' []
  | [], k, s, h, hs => by
    obtain rfl : s = s' := Option.some.inj hs
    exact h
  | a :: rest, k, s, h, hs => by
    rw [Sweep.lowerAll?, List.foldlM_cons] at hs
    obtain ⟨s₁, hlow, hrest⟩ := Option.bind_eq_some_iff.mp hs
    have hs' : g.Reaches s₀ n (k + 1 + rest.length) s' [] := lowerAll? rest (h.lower hlow) hrest
    rwa [List.length_cons, Nat.add_comm rest.length 1, ← Nat.add_assoc]

/-- The sweep that takes the nodes in the order in which they became ready passes through these
only. -/
theorem sweep? : ∀ (fuel : Nat) {n k : Nat} {s : Sweep α}, g.Reaches s₀ n k s [] →
    g.sweep? fuel s = some s' → ∃ n' k', g.Reaches s₀ n' k' s' []
  | 0, n, k, s, h, hs => by
    obtain rfl : s = s' := Option.some.inj hs
    exact ⟨n, k, h⟩
  | fuel + 1, n, k, s, h, hs => by
    unfold WaitGraph.sweep? at hs
    cases hready : s.ready with
    | nil =>
      rw [hready, Option.some.injEq] at hs
      exact ⟨n, k, hs ▸ h⟩
    | cons b rest =>
      simp only [hready] at hs
      obtain ⟨s₁, hrel, hs₁⟩ := Option.bind_eq_some_iff.mp hs
      have htaken := h.release (.of_eq hready) (.refl (g.waiters b))
      exact sweep? fuel (htaken.lowerAll? _ hrel) hs₁

end Reaches

/-! ## 2. What a step keeps -/

/-- The number of edges into these nodes. -/
def edgesInto (g : WaitGraph α) (released : List α) : Nat := g.edges.countP fun e => e.2 ∈ released

/-- The release of `b` brings the edges into it. -/
theorem edgesInto_cons {released : List α} {b : α} (hb : b ∉ released) :
    g.edgesInto (b :: released) = g.edgesInto released + (g.waiters b).length := by
  obtain ⟨nodes, edges⟩ := g
  simp only [edgesInto, waiters, List.length_map]
  induction edges with
  | nil => rfl
  | cons e rest ih =>
    simp only [List.countP_cons, List.filter_cons, ih]
    by_cases heb : e.2 = b
    · simp [heb, hb]
      omega
    · by_cases her : e.2 ∈ released
      · simp [heb, her]
        omega
      · simp [heb, her]

/-- What holds at every moment of a sweep. -/
structure Kept (g : WaitGraph α) (n k : Nat) (s : Sweep α) (pending : List α) : Prop where
  sound : s.Sound g pending
  pending_known : ∀ a ∈ pending, a ∈ g.nodes
  released_known : ∀ a ∈ s.released, a ∈ g.nodes
  releases : s.released.length = n
  /-- Every edge into a released node has lowered a counter, or is about to. -/
  lowered : k + pending.length = g.edgesInto s.released

theorem Sweep.Sound.of_pending_perm {told : List α} (h : s.Sound g pending)
    (hp : told.Perm pending) : s.Sound g told where
  counter a ha := by
    rw [hp.count_eq]
    exact h.counter a ha
  idle a ha := by
    rw [hp.count_eq]
    exact h.idle a ha
  distinct := h.distinct
  known := h.known
  cleared := h.cleared

theorem released_of_lower? {a : α} (h : s.lower? a = some s') : s'.released = s.released := by
  unfold Sweep.lower? at h
  split at h
  · exact congrArg Sweep.released (Option.some.inj h).symm
  · exact absurd h (by simp)
  · obtain rfl := Option.some.inj h
    rfl

theorem Kept.release (hg : g.WellFormed) (h : g.Kept n k s []) {b : α} {rest : List α}
    (hready : s.ready.Perm (b :: rest)) (hp : pending.Perm (g.waiters b)) :
    g.Kept (n + 1) k { s with ready := rest, released := b :: s.released } pending := by
  have hsound : Sweep.Sound g { s with ready := b :: rest } [] := h.sound.of_ready_perm hready.symm
  have hb : b ∈ s.ready := hready.mem_iff.mpr List.mem_cons_self
  -- whoever is ready was not released before: this is why no edge lowers a counter twice
  have hnew : b ∉ s.released := fun hmem =>
    (List.nodup_append.mp h.sound.distinct).2.2 b hb b hmem rfl
  refine ⟨(hsound.taken rfl).of_pending_perm hp, fun a ha => ?_, fun a ha => ?_, ?_, ?_⟩
  · exact mem_nodes_of_mem_waiters hg (hp.mem_iff.mp ha)
  · rcases List.mem_cons.mp ha with rfl | ha
    · exact h.sound.known a hb
    · exact h.released_known a ha
  · rw [List.length_cons, h.releases]
  · rw [edgesInto_cons hnew, ← h.lowered, hp.length_eq, List.length_nil, Nat.add_zero]

theorem Kept.lower {a : α} (h : g.Kept n k s (a :: pending)) (hs : s.lower? a = some s') :
    g.Kept n (k + 1) s' pending := by
  obtain ⟨s₁, hlow, hsound⟩ := lower?_sound h.sound (h.pending_known a List.mem_cons_self)
  obtain rfl : s₁ = s' := Option.some.inj (hlow.symm.trans hs)
  have hreleased := released_of_lower? hs
  refine ⟨hsound, fun b hb => h.pending_known b (List.mem_cons_of_mem _ hb), ?_, ?_, ?_⟩
  · rw [hreleased]
    exact h.released_known
  · rw [hreleased]
    exact h.releases
  · rw [hreleased, ← h.lowered, List.length_cons]
    omega

theorem Reaches.kept (hg : g.WellFormed) (hs₀ : s₀.Sound g []) (hnone : s₀.released = [])
    (h : g.Reaches s₀ n k s pending) : g.Kept n k s pending := by
  induction h with
  | start => exact ⟨hs₀, by simp, by simp [hnone], by simp [hnone], by simp [hnone, edgesInto]⟩
  | release _ hready hp ih => exact ih.release hg hready hp
  | lower _ hs ih => exact ih.lower hs

/-! ## 3. At every moment, and up to the end -/

/-- Whoever is to be told has a counter above zero, no node was released twice, those that were
released and those that are ready are no more than there are nodes, and no more counters were
lowered than there are edges. -/
structure InBounds (g : WaitGraph α) (n k : Nat) (s : Sweep α) (pending : List α) : Prop where
  positive : ∀ a ∈ pending, ∃ c, s.counters.lookup a = some (c + 1)
  once : s.released.Nodup
  releases : s.released.length = n
  nodes : n + s.ready.length ≤ g.nodes.length
  edges : k ≤ g.edges.length

theorem Kept.inBounds (h : g.Kept n k s pending) : g.InBounds n k s pending where
  positive a ha := by
    -- among what the counter of `a` counts are the edges of which it is still to be told
    have hpos : 0 < pending.count a := List.count_pos_iff.mpr ha
    obtain ⟨c, hc⟩ := Nat.exists_eq_add_of_lt hpos
    refine ⟨g.waits s.released a + c, ?_⟩
    rw [h.sound.counter a (h.pending_known a ha), hc, Nat.zero_add, Nat.add_assoc]
  once := (List.nodup_append.mp h.sound.distinct).2.1
  releases := h.releases
  nodes := by
    have hsub : s.ready ++ s.released ⊆ g.nodes := fun a ha =>
      (List.mem_append.mp ha).elim (h.sound.known a) (h.released_known a)
    have hle := h.sound.distinct.length_le_of_subset hsub
    rw [List.length_append, h.releases] at hle
    omega
  edges := by
    have hle : g.edgesInto s.released ≤ g.edges.length := List.countP_le_length
    have hlowered := h.lowered
    omega

/-- Whatever the orders in which nodes and edges are listed, a sweep is in bounds at every moment; and
the one that follows these orders comes to its end, where no node is ready. -/
structure SweptInBounds (g : WaitGraph α) : Prop where
  always : ∀ (e : g.Enumeration) {n k : Nat} {s : Sweep α} {pending : List α},
    e.graph.Reaches e.start n k s pending → g.InBounds n k s pending
  ends : ∀ e : g.Enumeration, ∃ n k s,
    e.swept? = some s ∧ e.graph.Reaches e.start n k s [] ∧ s.ready = []

theorem Enumeration.inBounds (e : g.Enumeration) (h : e.graph.InBounds n k s pending) :
    g.InBounds n k s pending :=
  { h with
    nodes := e.counted_perm.length_eq ▸ h.nodes
    edges := e.listed_perm.length_eq ▸ h.edges }

theorem sweptInBounds (hg : g.WellFormed) : g.SweptInBounds where
  always e _ _ _ _ h := e.inBounds (h.kept (e.graph_wellFormed hg) (e.start_sound hg) rfl).inBounds
  ends e := by
    obtain ⟨s, hs, hended⟩ := e.swept?_ended hg
    obtain ⟨n, k, hreaches⟩ := Reaches.start.sweep? _ hs
    exact ⟨n, k, s, hs, hreaches, hended.idle⟩

end WaitGraph

/-! ## 4. The two sweeps -/

/-- The first two passes over a batch find nothing, so that it is checked for circles. -/
def Batch.Searched (b : Batch) : Prop :=
  Batch.entryError? [] b.entries = none ∧ ∀ e ∈ b.entries, e.dependencyFlaw? [] e.dependsOn = none

theorem Batch.Searched.wellFormed {b : Batch} (h : b.Searched) : b.waitGraph.WellFormed :=
  waitGraph_wellFormed (entryError?_eq_none_iff.mp h.1).2.1

theorem Batch.Searched.check_eq_ok_iff {b : Batch} (h : b.Searched) :
    b.check = .ok () ↔ b.cycleFlaw? = none :=
  Batch.check_eq_ok_iff.trans ⟨fun hall => hall.2.2, fun hnone => ⟨h.1, h.2, hnone⟩⟩

/-- **No counter is lowered below zero, no node is released twice, and so the sweep ends after no more
releases than there are nodes.**  This holds for every roster with every batch that is to be
inserted, and for every batch that is checked for circles; and both answers are read off such a
sweep. -/
theorem counters_never_underflow :
    (∀ (r : Roster) (batch : List Submission), (r.waitGraph batch).SweptInBounds ∧
      ∃ s, (r.waitGraph batch).swept? = some s ∧ r.cycle? batch = leastId? s.blocked) ∧
    ∀ b : Batch, b.Searched → b.waitGraph.SweptInBounds ∧
      ∃ s, b.waitGraph.swept? = some s ∧
        (b.check = .ok () ↔ s.released.length = b.ids.length) := by
  refine ⟨fun r batch => ?_, fun b hb => ?_⟩
  · have hg := r.waitGraph_wellFormed batch
    obtain ⟨s, hs, -⟩ := WaitGraph.exists_swept?_ended hg
    refine ⟨WaitGraph.sweptInBounds hg, s, hs, ?_⟩
    rw [Roster.cycle?, WaitGraph.leftovers_of_swept? hs]
  · obtain ⟨s, hs, -⟩ := WaitGraph.exists_swept?_ended hb.wellFormed
    refine ⟨WaitGraph.sweptInBounds hb.wellFormed, s, hs, ?_⟩
    rw [hb.check_eq_ok_iff, Batch.cycleFlaw?, WaitGraph.releasedCount_of_swept? hs]
    split
    · next h => exact iff_of_true rfl h
    · next h => exact iff_of_false (by simp) h

/-- A job that waits on itself and twice on another, and a third that waits on that one. -/
def knot : List Submission :=
  [{ job := { id := ⟨"a"⟩, factory := "Test", created := 1 },
     edges := [⟨⟨"a"⟩, ⟨"a"⟩⟩, ⟨⟨"a"⟩, ⟨"b"⟩⟩, ⟨⟨"a"⟩, ⟨"b"⟩⟩] },
   { job := { id := ⟨"b"⟩, factory := "Test", created := 2 } },
   { job := { id := ⟨"c"⟩, factory := "Test", created := 3 }, edges := [⟨⟨"c"⟩, ⟨"b"⟩⟩] }]

/-- Two entries that wait on each other, one that waits on both, and one that waits on nobody. -/
def knottedBatch : Batch :=
  { entries :=
      [{ id? := some "load", factory := "http", dependsOn := ["parse", "check", "fetch"] },
        { id? := some "parse", factory := "http", dependsOn := ["fetch", "check"] },
        { id? := some "check", factory := "http", dependsOn := ["parse", "absent"] },
        { id? := some "fetch", factory := "http" }] }

theorem counters_never_underflow_knotted :
    let r := (Index.fresh .runToCompletion).roster
    (∃ s, (r.waitGraph knot).swept? = some s ∧ leastId? s.blocked = some ⟨"a"⟩) ∧
      knottedBatch.Searched ∧ knottedBatch.waitGraph.SweptInBounds ∧
      knottedBatch.check = .error (.invalid (.cycle ["check", "load", "parse"])) ∧
      ∃ s, knottedBatch.waitGraph.swept? = some s ∧ s.released.length ≠ knottedBatch.ids.length := by
  intro r
  have hnamed : r.cycle? knot = some ⟨"a"⟩ := by cbv
  have hsearched : knottedBatch.Searched :=
    ⟨by cbv, by simp [knottedBatch, BatchEntry.dependencyFlaw?]⟩
  have hcheck : knottedBatch.check = .error (.invalid (.cycle ["check", "load", "parse"])) := by cbv
  obtain ⟨-, s, hs, hleast⟩ := counters_never_underflow.1 r knot
  obtain ⟨hbounds, s', hs', hok⟩ := counters_never_underflow.2 knottedBatch hsearched
  refine ⟨⟨s, hs, hleast.symm.trans hnamed⟩, hsearched, hbounds, hcheck, s', hs', fun hlen => ?_⟩
  have haccepted := hok.mpr hlen
  rw [hcheck] at haccepted
  cases haccepted

end Backlog
