/-
# What a sweep of a waiting graph finds out

The sweep lowers counters and never looks at paths.  `Sound` says what its counters mean: the
counter of a node is the number of edges on which it still waits, once the waiters that the running
release has not reached yet are taken into account.  From this follow

* `lower?_sound`: no counter is ever lowered below zero;
* `release?_sound`, `sweep?_sound`: every release, and so the sweep, keeps `Sound`;
* `Cleared`: the released nodes stand in an order in which each waits on earlier ones only, so none
  of them is on a cycle (`Cleared.not_onCycle`).
-/
import Backlog.Graph
import Backlog.Proofs.Filed
import Mathlib.Data.List.Nodup

namespace Backlog

namespace WaitGraph

variable {α : Type} {g : WaitGraph α}

/-! ## 1. Graphs, and released nodes -/

/-- No node is listed twice, and edges join nodes. -/
structure WellFormed (g : WaitGraph α) : Prop where
  unique : g.nodes.Nodup
  inside : ∀ e ∈ g.edges, e.1 ∈ g.nodes ∧ e.2 ∈ g.nodes

/-- Latest first: each node waits only on nodes that were released before it. -/
inductive Cleared (g : WaitGraph α) : List α → Prop
  | nil : Cleared g []
  | cons {a : α} {released : List α} :
      (∀ b, (a, b) ∈ g.edges → b ∈ released) → Cleared g released → Cleared g (a :: released)

namespace Cleared

variable {released : List α}

theorem mem_of_edge (h : g.Cleared released) {a b : α} (ha : a ∈ released)
    (hab : (a, b) ∈ g.edges) : b ∈ released := by
  induction h with
  | nil => exact absurd ha (by simp)
  | cons hc _ ih =>
    rcases List.mem_cons.mp ha with rfl | ha
    · exact List.mem_cons_of_mem _ (hc b hab)
    · exact List.mem_cons_of_mem _ (ih ha)

theorem mem_of_path (h : g.Cleared released) {a b : α} (ha : a ∈ released) (hab : g.Path a b) :
    b ∈ released := by
  induction hab with
  | edge he => exact h.mem_of_edge ha he
  | cons he _ ih => exact ih (h.mem_of_edge ha he)

theorem not_onCycle (h : g.Cleared released) {a : α} (ha : a ∈ released) : ¬g.OnCycle a := by
  induction h with
  | nil => exact absurd ha (by simp)
  | @cons b released hc hrest ih =>
    rcases List.mem_cons.mp ha with rfl | ha
    · intro hcycle
      -- the cycle leaves `a` for a node released before it, and never comes back
      have hmem : a ∈ released := by
        cases hcycle with
        | edge he => exact hc a he
        | cons he hpath => exact hrest.mem_of_path (hc _ he) hpath
      exact ih hmem hcycle
    · exact ih ha

end Cleared

variable [DecidableEq α]

/-- The number of edges on which `a` still waits when these nodes are released. -/
def waits (g : WaitGraph α) (released : List α) (a : α) : Nat :=
  g.edges.countP fun e => e.1 = a ∧ e.2 ∉ released

theorem waits_nil (a : α) : g.waits [] a = g.inDegree a := by
  simp [waits, inDegree]

theorem waits_eq_zero_iff {released : List α} {a : α} :
    g.waits released a = 0 ↔ ∀ b, (a, b) ∈ g.edges → b ∈ released := by
  rw [waits, List.countP_eq_zero]
  constructor
  · intro h b hab
    simpa using h (a, b) hab
  · rintro h ⟨c, b⟩ hcb
    have hmem : c = a → b ∈ released := by
      rintro rfl
      exact h b hcb
    simpa using hmem

/-- The release of `b` takes away the edges into it. -/
theorem waits_eq_add {released : List α} {b : α} (hb : b ∉ released) (a : α) :
    g.waits released a = g.waits (b :: released) a + (g.waiters b).count a := by
  obtain ⟨nodes, edges⟩ := g
  simp only [waits, waiters]
  induction edges with
  | nil => rfl
  | cons e rest ih =>
    simp only [List.countP_cons, ih]
    by_cases heb : e.2 = b
    · by_cases hea : e.1 = a
      · simp [hea, heb, hb]
        omega
      · simp [hea, heb]
    · by_cases hea : e.1 = a ∧ e.2 ∉ released
      · simp [hea, heb]
        omega
      · simp [hea, heb]

/-! ## 2. What the counters mean -/

/-- The state of a sweep in which the nodes of `pending`, one by one, have yet to learn that the
latest node was released. -/
structure Sweep.Sound (g : WaitGraph α) (s : Sweep α) (pending : List α) : Prop where
  counter : ∀ a ∈ g.nodes, s.counters.lookup a = some (g.waits s.released a + pending.count a)
  /-- Nodes that are ready, or were, wait on nothing any more. -/
  idle : ∀ a ∈ s.ready ++ s.released, g.waits s.released a + pending.count a = 0
  distinct : (s.ready ++ s.released).Nodup
  known : ∀ a ∈ s.ready, a ∈ g.nodes
  cleared : g.Cleared s.released

theorem lookup_map_set {a : α} {n : Nat} : ∀ (l : List (α × Nat)) (b : α),
    (l.map fun c => if c.1 = a then (c.1, n) else c).lookup b
      = if b = a then (l.lookup b).map fun _ => n else l.lookup b
  | [], b => by simp
  | (c, m) :: rest, b => by
    have ih := lookup_map_set (a := a) (n := n) rest b
    by_cases hc : c = a
    · subst hc
      by_cases hb : b = c
      · simp [hb]
      · simp only [hb, if_false] at ih
        simp [lookup_cons_eq, hb, ih]
    · by_cases hb : b = a
      · have hbc : ¬b = c := fun h => hc (h.symm.trans hb)
        simp only [hb, if_true] at ih
        simp [lookup_cons_eq, hc, hb, ih, Ne.symm hc]
      · simp only [hb, if_false] at ih
        simp [lookup_cons_eq, hc, hb, ih]

variable {s : Sweep α} {pending : List α}

namespace Sweep.Sound

variable {a : α}

/-- A node that is still to be told is neither ready nor released. -/
theorem notMem_of_pending (h : s.Sound g (a :: pending)) : a ∉ s.ready ++ s.released := by
  intro hmem
  have hzero := h.idle a hmem
  rw [List.count_cons_self] at hzero
  omega

theorem idle_tail (h : s.Sound g (a :: pending)) :
    ∀ b ∈ s.ready ++ s.released, g.waits s.released b + pending.count b = 0 := by
  intro b hb
  have hne : a ≠ b := fun heq => h.notMem_of_pending (heq ▸ hb)
  have hzero := h.idle b hb
  rwa [List.count_cons_of_ne hne] at hzero

/-- The counters, once that of `a` is set to what it should be. -/
theorem counter_tail (h : s.Sound g (a :: pending)) : ∀ b ∈ g.nodes,
    (s.counters.map fun c => if c.1 = a then (c.1, g.waits s.released a + pending.count a)
      else c).lookup b = some (g.waits s.released b + pending.count b) := by
  intro b hb
  rw [lookup_map_set, h.counter b hb]
  by_cases hba : b = a
  · simp [hba]
  · rw [if_neg hba, List.count_cons_of_ne (Ne.symm hba)]

end Sweep.Sound

/-- The counter of a waiting node is above zero, so it can be lowered. -/
theorem lower?_sound {a : α} (h : s.Sound g (a :: pending)) (ha : a ∈ g.nodes) :
    ∃ s', s.lower? a = some s' ∧ s'.Sound g pending := by
  have hcounter := h.counter a ha
  rw [List.count_cons_self, ← Nat.add_assoc] at hcounter
  unfold Sweep.lower?
  rw [hcounter]
  refine ⟨_, rfl, ?_⟩
  by_cases hzero : g.waits s.released a + pending.count a = 0
  · -- that was the last edge: `a` becomes ready
    rw [if_pos hzero]
    refine ⟨h.counter_tail, fun b hb => ?_, ?_, fun b hb => ?_, h.cleared⟩
    · simp only [List.append_assoc, List.mem_append, List.mem_singleton] at hb
      rcases hb with hb | rfl | hb
      · exact h.idle_tail b (List.mem_append_left _ hb)
      · exact hzero
      · exact h.idle_tail b (List.mem_append_right _ hb)
    · rw [List.append_assoc, List.singleton_append]
      exact List.nodup_middle.mpr (List.nodup_cons.mpr ⟨h.notMem_of_pending, h.distinct⟩)
    · rcases List.mem_append.mp hb with hb | hb
      · exact h.known b hb
      · rw [List.mem_singleton.mp hb]
        exact ha
  · rw [if_neg hzero]
    exact ⟨h.counter_tail, h.idle_tail, h.distinct, h.known, h.cleared⟩

theorem lowerAll?_sound : ∀ (pending : List α) {s : Sweep α}, s.Sound g pending →
    (∀ a ∈ pending, a ∈ g.nodes) → ∃ s', s.lowerAll? pending = some s' ∧ s'.Sound g []
  | [], s, h, _ => ⟨s, rfl, h⟩
  | a :: rest, s, h, hin => by
    obtain ⟨s₁, hlow, hs₁⟩ := lower?_sound h (hin a List.mem_cons_self)
    obtain ⟨s₂, hall, hs₂⟩ := lowerAll?_sound rest hs₁ fun b hb => hin b (List.mem_cons_of_mem _ hb)
    refine ⟨s₂, ?_, hs₂⟩
    rw [Sweep.lowerAll?, List.foldlM_cons, hlow]
    exact hall

/-! ## 3. The sweep -/

theorem start_sound (hg : g.WellFormed) : g.start.Sound g [] where
  counter a ha := by
    have hlookup : ∀ (nodes : List α), a ∈ nodes →
        (nodes.map fun b => (b, g.inDegree b)).lookup a = some (g.inDegree a) := by
      intro nodes
      induction nodes with
      | nil => intro hmem; exact absurd hmem (by simp)
      | cons b rest ih =>
        intro hmem
        rw [List.map_cons, lookup_cons_eq]
        by_cases hab : a = b
        · rw [if_pos hab, hab]
        · rw [if_neg hab]
          exact ih ((List.mem_cons.mp hmem).resolve_left hab)
    simpa [start, waits_nil] using hlookup g.nodes ha
  idle a ha := by
    have hready : a ∈ g.nodes ∧ g.inDegree a = 0 := by simpa [start] using ha
    simpa [start, waits_nil] using hready.2
  distinct := by
    rw [start, List.append_nil]
    exact hg.unique.filter _
  known a ha := List.mem_of_mem_filter ha
  cleared := .nil

/-- A ready node is released; those that wait on it are yet to be told. -/
theorem Sweep.Sound.taken {b : α} {rest : List α} (h : s.Sound g [])
    (hready : s.ready = b :: rest) :
    Sweep.Sound g { s with ready := rest, released := b :: s.released } (g.waiters b) := by
  have hdistinct : (b :: (rest ++ s.released)).Nodup := by
    have := h.distinct
    rwa [hready, List.cons_append] at this
  obtain ⟨hb, hrest⟩ := List.nodup_cons.mp hdistinct
  have hb' : b ∉ s.released := fun hmem => hb (List.mem_append_right _ hmem)
  have hwaits : ∀ a, g.waits s.released a + ([] : List α).count a
      = g.waits (b :: s.released) a + (g.waiters b).count a := waits_eq_add hb'
  refine ⟨fun a ha => ?_, fun a ha => ?_, ?_, fun a ha => ?_, ?_⟩
  · rw [← hwaits a]
    exact h.counter a ha
  · rw [← hwaits a]
    refine h.idle a ?_
    rw [hready]
    exact List.perm_middle.mem_iff.mp ha
  · exact List.nodup_middle.mpr hdistinct
  · exact h.known a (hready ▸ List.mem_cons_of_mem _ ha)
  · refine .cons (waits_eq_zero_iff.mp ?_) h.cleared
    exact h.idle b (List.mem_append_left _ (hready ▸ List.mem_cons_self))

theorem mem_nodes_of_mem_waiters (hg : g.WellFormed) {a b : α} (h : a ∈ g.waiters b) :
    a ∈ g.nodes := by
  obtain ⟨e, he, rfl⟩ := List.mem_map.mp h
  exact (hg.inside e (List.mem_of_mem_filter he)).1

theorem release?_sound (hg : g.WellFormed) {b : α} {rest : List α} (h : s.Sound g [])
    (hready : s.ready = b :: rest) : ∃ s', g.release? s b rest = some s' ∧ s'.Sound g [] :=
  lowerAll?_sound (g.waiters b) (h.taken hready) fun _ ha => mem_nodes_of_mem_waiters hg ha

theorem sweep?_sound (hg : g.WellFormed) : ∀ (fuel : Nat) {s : Sweep α}, s.Sound g [] →
    ∃ s', g.sweep? fuel s = some s' ∧ s'.Sound g []
  | 0, s, h => ⟨s, rfl, h⟩
  | fuel + 1, s, h => by
    unfold sweep?
    cases hready : s.ready with
    | nil => exact ⟨s, rfl, h⟩
    | cons b rest =>
      obtain ⟨s₁, hrel, hs₁⟩ := release?_sound hg h hready
      simp only [hrel, Option.bind_some]
      exact sweep?_sound hg fuel hs₁

end WaitGraph

end Backlog
