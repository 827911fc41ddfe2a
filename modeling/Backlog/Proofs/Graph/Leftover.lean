/-
# What a sweep of a waiting graph leaves behind

A sweep stops when no node is ready.  It overlooks nobody: `Thorough` says that whoever waits on
nothing any more is ready or was, and a sweep that may release as many nodes as there are does not
stop before that (`sweep?_thorough`).  So whoever is left behind waits on somebody else who is left
behind, and going from one to the next leads in a circle.

* `exists_cycle`: if each of several things leads to another one of them, they lead in a circle;
* `exists_transGen_cycle`: whatever leads only to things that lead on leads into a circle;
* `Sweep.Ended`: a sweep that has come to its end, and `sweep?_ended` that it does;
* `Sweep.Ended.mem_blocked_iff_snared`: **whoever waits on a cycle is left behind, and nobody else**;
* `leftovers_eq_nil_iff`: so nothing is left behind exactly if the graph has no cycle.
-/
import Backlog.Proofs.Graph.Sweep
import Mathlib.Data.List.Nodup
import Mathlib.Logic.Relation

namespace Backlog

open Relation

/-! ## 1. Circles -/

/-- Going from each to the next, one comes back to where one was. -/
theorem exists_cycle {α : Type} : ∀ {l : List α} {R : α → α → Prop}, l ≠ [] →
    (∀ a ∈ l, ∃ b ∈ l, R a b) → ∃ a ∈ l, TransGen R a a
  | [], _, hne, _ => absurd rfl hne
  | a :: l, R, _, hnext => by
    by_cases haa : R a a
    · exact ⟨a, List.mem_cons_self, .single haa⟩
    obtain ⟨c, hc, hac⟩ := hnext a List.mem_cons_self
    have hcl : c ∈ l := (List.mem_cons.mp hc).resolve_left fun h => haa (h ▸ hac)
    -- leave `a` out: whoever leads to it leads to what comes after it
    have hskip : ∀ b ∈ l, ∃ e ∈ l, R b e ∨ R b a ∧ R a e := by
      intro b hb
      obtain ⟨e, he, hbe⟩ := hnext b (List.mem_cons_of_mem _ hb)
      rcases List.mem_cons.mp he with rfl | he
      · exact ⟨c, hcl, .inr ⟨hbe, hac⟩⟩
      · exact ⟨e, he, .inl hbe⟩
    obtain ⟨b, hb, hcycle⟩ := exists_cycle (List.ne_nil_of_mem hcl) hskip
    refine ⟨b, List.mem_cons_of_mem _ hb, transGen_minimal ?_ _ _ hcycle⟩
    rintro u v (huv | ⟨hua, hav⟩)
    · exact .single huv
    · exact .tail (.single hua) hav

/-- If everything that `a` leads to leads on, then `a` leads into a circle. -/
theorem exists_transGen_cycle {α : Type} {l : List α} {R : α → α → Prop} {a : α} (ha : a ∈ l)
    (hnext : ∀ b ∈ l, ReflTransGen R a b → ∃ c ∈ l, R b c) :
    ∃ c, TransGen R a c ∧ TransGen R c c := by
  classical
  have hmem : ∀ b, b ∈ l.filter (fun b => decide (ReflTransGen R a b)) ↔
      b ∈ l ∧ ReflTransGen R a b := by simp
  have hne : l.filter (fun b => decide (ReflTransGen R a b)) ≠ [] :=
    List.ne_nil_of_mem ((hmem a).mpr ⟨ha, .refl⟩)
  obtain ⟨c, hc, hcycle⟩ := exists_cycle hne fun b hb => by
    obtain ⟨hb, hab⟩ := (hmem b).mp hb
    obtain ⟨e, he, hbe⟩ := hnext b hb hab
    exact ⟨e, (hmem e).mpr ⟨he, hab.tail hbe⟩, hbe⟩
  exact ⟨c, .trans_right ((hmem c).mp hc).2 hcycle, hcycle⟩

namespace WaitGraph

variable {α : Type} {g : WaitGraph α}

/-- From `a` one gets to a cycle. -/
def Snared (g : WaitGraph α) (a : α) : Prop := ∃ c, g.Path a c ∧ g.OnCycle c

theorem path_iff_transGen {a b : α} : g.Path a b ↔ TransGen (fun a b => (a, b) ∈ g.edges) a b := by
  constructor
  · intro h
    induction h with
    | edge he => exact .single he
    | cons he _ ih => exact .head he ih
  · intro h
    induction h using TransGen.head_induction_on with
    | single he => exact .edge he
    | head he _ ih => exact .cons he ih

theorem acyclic_iff_not_snared : g.Acyclic ↔ ∀ a, ¬g.Snared a := by
  constructor
  · rintro h a ⟨c, -, hcycle⟩
    exact h c hcycle
  · intro h a hcycle
    exact h a ⟨a, hcycle, hcycle⟩

variable [DecidableEq α] {s s' : Sweep α} {pending : List α}

/-! ## 2. A sweep overlooks nobody -/

/-- Every node has its counter, whoever waits on nothing any more is ready or was, and only nodes
were released. -/
structure Sweep.Thorough (g : WaitGraph α) (s : Sweep α) (pending : List α) : Prop where
  counted : s.counters.map Prod.fst = g.nodes
  found : ∀ a ∈ g.nodes, g.waits s.released a + pending.count a = 0 → a ∈ s.ready ++ s.released
  known : ∀ a ∈ s.released, a ∈ g.nodes

theorem lower?_thorough {a : α} (h : s.Sound g (a :: pending)) (ht : s.Thorough g (a :: pending))
    (ha : a ∈ g.nodes) (hs : s.lower? a = some s') :
    s'.released = s.released ∧ s'.Thorough g pending := by
  have hcounter := h.counter a ha
  rw [List.count_cons_self, ← Nat.add_assoc] at hcounter
  simp only [Sweep.lower?, hcounter, Option.some.injEq] at hs
  subst hs
  refine ⟨rfl, ?_, fun b hb hzero => ?_, ht.known⟩
  · rw [← ht.counted, List.map_map]
    refine List.map_congr_left fun c _ => ?_
    simp only [Function.comp]
    split <;> rfl
  · by_cases hba : b = a
    · subst hba
      rw [if_pos hzero]
      simp
    · have hfound := ht.found b hb (by rwa [List.count_cons_of_ne (Ne.symm hba)])
      rcases List.mem_append.mp hfound with hready | hreleased
      · refine List.mem_append_left _ ?_
        show b ∈ if _ then s.ready ++ [a] else s.ready
        split
        · exact List.mem_append_left _ hready
        · exact hready
      · exact List.mem_append_right _ hreleased

theorem lowerAll?_thorough : ∀ (pending : List α) {s s' : Sweep α}, s.Sound g pending →
    s.Thorough g pending → (∀ a ∈ pending, a ∈ g.nodes) → s.lowerAll? pending = some s' →
      s'.released = s.released ∧ s'.Thorough g []
  | [], s, s', _, ht, _, hs => by
    obtain rfl : s = s' := Option.some.inj hs
    exact ⟨rfl, ht⟩
  | a :: rest, s, s', h, ht, hin, hs => by
    have ha : a ∈ g.nodes := hin a List.mem_cons_self
    obtain ⟨s₁, hlow, hs₁⟩ := lower?_sound h ha
    obtain ⟨hreleased, ht₁⟩ := lower?_thorough h ht ha hlow
    have hs' : s₁.lowerAll? rest = some s' := by
      rw [Sweep.lowerAll?, List.foldlM_cons, hlow] at hs
      exact hs
    rw [← hreleased]
    exact lowerAll?_thorough rest hs₁ ht₁ (fun b hb => hin b (List.mem_cons_of_mem _ hb)) hs'

theorem start_thorough : g.start.Thorough g [] where
  counted := by
    rw [start, List.map_map]
    exact (List.map_congr_left fun _ _ => rfl).trans g.nodes.map_id
  found a ha hzero := by
    have hidle : g.inDegree a = 0 := by simpa [start, waits_nil] using hzero
    exact List.mem_append_left _ (List.mem_filter.mpr ⟨ha, by simpa using hidle⟩)
  known a ha := absurd ha (by simp [start])

theorem release?_thorough (hg : g.WellFormed) {b : α} {rest : List α} (h : s.Sound g [])
    (ht : s.Thorough g []) (hready : s.ready = b :: rest) (hs : g.release? s b rest = some s') :
    s'.released = b :: s.released ∧ s'.Thorough g [] := by
  refine lowerAll?_thorough (g.waiters b) (h.taken hready) ⟨ht.counted, fun a ha hzero => ?_,
    fun a ha => ?_⟩ (fun a ha => mem_nodes_of_mem_waiters hg ha) hs
  · -- whoever does not wait on `b` was found before
    have hb : b ∉ s.released := by
      have hdistinct := h.distinct
      rw [hready, List.cons_append] at hdistinct
      exact fun hmem => (List.nodup_cons.mp hdistinct).1 (List.mem_append_right _ hmem)
    have hold : g.waits s.released a = 0 := (waits_eq_add hb a).trans hzero
    have hfound := ht.found a ha (by rw [hold, List.count_nil])
    rw [hready] at hfound
    exact List.perm_middle.mem_iff.mpr hfound
  · rcases List.mem_cons.mp ha with rfl | ha
    · exact h.known a (hready ▸ List.mem_cons_self)
    · exact ht.known a ha

/-- With as many releases left as there are nodes to release, the sweep goes on to the end. -/
theorem sweep?_thorough (hg : g.WellFormed) : ∀ (fuel : Nat) {s s' : Sweep α}, s.Sound g [] →
    s.Thorough g [] → g.sweep? fuel s = some s' → g.nodes.length ≤ fuel + s.released.length →
      s'.ready = [] ∧ s'.Thorough g []
  | 0, s, s', h, ht, hs, hlen => by
    obtain rfl : s = s' := Option.some.inj hs
    refine ⟨List.length_eq_zero_iff.mp ?_, ht⟩
    have hsub : s.ready ++ s.released ⊆ g.nodes := fun a ha =>
      (List.mem_append.mp ha).elim (h.known a) (ht.known a)
    have hle := h.distinct.length_le_of_subset hsub
    rw [List.length_append] at hle
    omega
  | fuel + 1, s, s', h, ht, hs, hlen => by
    unfold sweep? at hs
    cases hready : s.ready with
    | nil =>
      rw [hready, Option.some.injEq] at hs
      exact ⟨hs ▸ hready, hs ▸ ht⟩
    | cons b rest =>
      obtain ⟨s₁, hrel, hs₁⟩ := release?_sound hg h hready
      obtain ⟨hreleased, ht₁⟩ := release?_thorough hg h ht hready hrel
      simp only [hready, hrel, Option.bind_some] at hs
      refine sweep?_thorough hg fuel hs₁ ht₁ hs ?_
      rw [hreleased, List.length_cons]
      omega

/-! ## 3. What is left -/

/-- A sweep that has come to its end. -/
structure Sweep.Ended (g : WaitGraph α) (s : Sweep α) : Prop where
  sound : s.Sound g []
  thorough : s.Thorough g []
  idle : s.ready = []

/-- No counter is lowered below zero on the way, and the end is reached. -/
theorem sweep?_ended (hg : g.WellFormed) {fuel : Nat} (h : s.Sound g []) (ht : s.Thorough g [])
    (hlen : g.nodes.length ≤ fuel + s.released.length) :
    ∃ s', g.sweep? fuel s = some s' ∧ s'.Ended g := by
  obtain ⟨s', hs, hsound⟩ := sweep?_sound hg fuel h
  obtain ⟨hready, hthorough⟩ := sweep?_thorough hg fuel h ht hs hlen
  exact ⟨s', hs, hsound, hthorough, hready⟩

theorem exists_swept?_ended (hg : g.WellFormed) : ∃ s, g.swept? = some s ∧ s.Ended g :=
  sweep?_ended hg (start_sound hg) start_thorough (Nat.le_add_right _ _)

namespace Sweep.Ended

variable {a : α}

theorem mem_released_of_waits (h : s.Ended g) (ha : a ∈ g.nodes) (hzero : g.waits s.released a = 0) :
    a ∈ s.released := by
  have hfound := h.thorough.found a ha (by rw [hzero, List.count_nil])
  rwa [h.idle, List.nil_append] at hfound

/-- Who is left behind: the nodes that were not released. -/
theorem mem_blocked_iff (hg : g.WellFormed) (h : s.Ended g) :
    a ∈ s.blocked ↔ a ∈ g.nodes ∧ a ∉ s.released := by
  have hunique : (s.counters.map Prod.fst).Nodup := h.thorough.counted ▸ hg.unique
  simp only [blocked, List.mem_map, List.mem_filter, decide_eq_true_eq]
  constructor
  · rintro ⟨⟨b, n⟩, ⟨hmem, hpos⟩, rfl⟩
    have hnode : b ∈ g.nodes := h.thorough.counted ▸ List.mem_map.mpr ⟨(b, n), hmem, rfl⟩
    refine ⟨hnode, fun hreleased => ?_⟩
    have hidle := h.sound.idle b (List.mem_append_right _ hreleased)
    have hcounter := h.sound.counter b hnode
    rw [hidle, lookup_eq_some_of_mem hunique hmem, Option.some.injEq] at hcounter
    exact absurd hcounter (Nat.ne_of_gt hpos)
  · rintro ⟨hnode, hnot⟩
    have hmem : a ∈ s.counters.map Prod.fst := h.thorough.counted ▸ hnode
    obtain ⟨⟨b, n⟩, hbn, rfl⟩ := List.mem_map.mp hmem
    refine ⟨(b, n), ⟨hbn, Nat.pos_of_ne_zero fun hzero => hnot ?_⟩, rfl⟩
    have hcounter := h.sound.counter b hnode
    rw [lookup_eq_some_of_mem hunique hbn, Option.some.injEq, List.count_nil, Nat.add_zero]
      at hcounter
    exact h.mem_released_of_waits hnode (hcounter ▸ hzero)

/-- Whoever is left behind waits on somebody who is left behind. -/
theorem exists_edge_of_mem_blocked (hg : g.WellFormed) (h : s.Ended g) (ha : a ∈ s.blocked) :
    ∃ b ∈ s.blocked, (a, b) ∈ g.edges := by
  obtain ⟨hnode, hnot⟩ := (h.mem_blocked_iff hg).mp ha
  have hwaits : ¬∀ b, (a, b) ∈ g.edges → b ∈ s.released := by
    intro hall
    exact hnot (h.mem_released_of_waits hnode (waits_eq_zero_iff.mpr hall))
  simp only [not_forall] at hwaits
  obtain ⟨b, hab, hb⟩ := hwaits
  exact ⟨b, (h.mem_blocked_iff hg).mpr ⟨(hg.inside _ hab).2, hb⟩, hab⟩

/-- **Whoever waits on a cycle is left behind, and nobody else.** -/
theorem mem_blocked_iff_snared (hg : g.WellFormed) (h : s.Ended g) :
    a ∈ s.blocked ↔ g.Snared a := by
  constructor
  · intro ha
    obtain ⟨c, hac, hcycle⟩ := exists_transGen_cycle (R := fun a b => (a, b) ∈ g.edges) ha
      fun b hb _ => h.exists_edge_of_mem_blocked hg hb
    exact ⟨c, path_iff_transGen.mpr hac, path_iff_transGen.mpr hcycle⟩
  · rintro ⟨c, hac, hcycle⟩
    have hnode : a ∈ g.nodes := by
      cases hac with
      | edge he => exact (hg.inside _ he).1
      | cons he _ => exact (hg.inside _ he).1
    -- released nodes lead to released nodes only, and none of these is on a cycle
    refine (h.mem_blocked_iff hg).mpr ⟨hnode, fun hreleased => ?_⟩
    exact h.sound.cleared.not_onCycle (h.sound.cleared.mem_of_path hreleased hac) hcycle

/-- Every node was released exactly if the graph has no cycle. -/
theorem length_released_eq_iff (hg : g.WellFormed) (h : s.Ended g) :
    s.released.length = g.nodes.length ↔ g.Acyclic := by
  have hdistinct : s.released.Nodup := (List.nodup_append.mp h.sound.distinct).2.1
  rw [acyclic_iff_not_snared]
  constructor
  · intro hlen a ha
    obtain ⟨hnode, hnot⟩ := (h.mem_blocked_iff hg).mp ((h.mem_blocked_iff_snared hg).mpr ha)
    have hcons : (a :: s.released).Nodup := List.nodup_cons.mpr ⟨hnot, hdistinct⟩
    have hle : (a :: s.released).length ≤ g.nodes.length :=
      hcons.length_le_of_subset (List.cons_subset.mpr ⟨hnode, h.thorough.known⟩)
    rw [List.length_cons] at hle
    omega
  · intro hnone
    have hall : g.nodes ⊆ s.released := by
      intro a ha
      by_contra hnot
      exact hnone a ((h.mem_blocked_iff_snared hg).mp ((h.mem_blocked_iff hg).mpr ⟨ha, hnot⟩))
    have hle : s.released.length ≤ g.nodes.length :=
      hdistinct.length_le_of_subset h.thorough.known
    have hge : g.nodes.length ≤ s.released.length := hg.unique.length_le_of_subset hall
    omega

end Sweep.Ended

theorem releasedCount_of_swept? (hs : g.swept? = some s) : g.releasedCount = s.released.length := by
  simp [releasedCount, hs]

theorem leftovers_of_swept? (hs : g.swept? = some s) : g.leftovers = s.blocked := by
  simp [leftovers, hs]

theorem releasedCount_eq_iff (hg : g.WellFormed) :
    g.releasedCount = g.nodes.length ↔ g.Acyclic := by
  obtain ⟨s, hs, hended⟩ := exists_swept?_ended hg
  rw [releasedCount_of_swept? hs]
  exact hended.length_released_eq_iff hg

theorem mem_leftovers_iff (hg : g.WellFormed) {a : α} : a ∈ g.leftovers ↔ g.Snared a := by
  obtain ⟨s, hs, hended⟩ := exists_swept?_ended hg
  rw [leftovers_of_swept? hs]
  exact hended.mem_blocked_iff_snared hg

/-- The sweep finds every cycle, and nothing else. -/
theorem leftovers_eq_nil_iff (hg : g.WellFormed) : g.leftovers = [] ↔ g.Acyclic := by
  rw [acyclic_iff_not_snared, List.eq_nil_iff_forall_not_mem]
  exact forall_congr' fun a => not_congr (mem_leftovers_iff hg)

end WaitGraph

end Backlog
