/-
# Waiting graphs and the sweep that empties them

A node of a waiting graph waits on other nodes.  The sweep gives every node a counter of the
edges on which it waits, starts from the nodes that wait on nothing, and releases one of them
at a time: each edge into a released node lowers a counter, and a node whose counter reaches
zero becomes ready in its turn.  The nodes that stay behind are those that wait, directly or
through others, on a cycle.

* `Path`, `OnCycle`, `Acyclic`: the graph read as a relation;
* `Sweep`, `Sweep.lower?`, `Sweep.release?`: the state of a sweep and its two moves.  A counter
  cannot be lowered below zero: the move is `none` there;
* `leftovers`: the nodes with a counter above zero when no node is ready any more.
-/

namespace Backlog

/-- Who waits on whom: an edge `(a, b)` says that `a` waits on `b`. -/
structure WaitGraph (α : Type) where
  nodes : List α
  edges : List (α × α)

namespace WaitGraph

variable {α : Type}

/-! ## 1. The graph as a relation -/

/-- `a` waits on `b`, directly or through others. -/
inductive Path (g : WaitGraph α) : α → α → Prop
  | edge {a b : α} : (a, b) ∈ g.edges → Path g a b
  | cons {a b c : α} : (a, b) ∈ g.edges → Path g b c → Path g a c

/-- `a` waits on itself, directly or through others. -/
def OnCycle (g : WaitGraph α) (a : α) : Prop := g.Path a a

/-- No node waits on itself. -/
def Acyclic (g : WaitGraph α) : Prop := ∀ a, ¬g.OnCycle a

variable [DecidableEq α]

/-- The number of edges on which `a` waits. -/
def inDegree (g : WaitGraph α) (a : α) : Nat := g.edges.countP fun e => e.1 = a

/-- The nodes that wait on `b`, once for each edge. -/
def waiters (g : WaitGraph α) (b : α) : List α :=
  (g.edges.filter fun e => e.2 = b).map Prod.fst

/-! ## 2. The sweep -/

/-- The state of a sweep: a counter for each node, the nodes that are ready, and those that
have been released, latest first. -/
structure Sweep (α : Type) where
  counters : List (α × Nat)
  ready : List α
  released : List α := []

/-- Lowers the counter of `a`, and makes `a` ready if that was its last edge.  `none` if the
counter stands at zero. -/
def Sweep.lower? (s : Sweep α) (a : α) : Option (Sweep α) :=
  match s.counters.lookup a with
  | none => some s
  | some 0 => none
  | some (n + 1) =>
    some { s with
      counters := s.counters.map fun c => if c.1 = a then (c.1, n) else c
      ready := if n = 0 then s.ready ++ [a] else s.ready }

/-- Lowers the counters of a list of nodes, one after the other. -/
def Sweep.lowerAll? (s : Sweep α) (as : List α) : Option (Sweep α) := as.foldlM Sweep.lower? s

/-- Every counter at the number of edges, and the nodes that wait on nothing ready. -/
def start (g : WaitGraph α) : Sweep α :=
  { counters := g.nodes.map fun a => (a, g.inDegree a)
    ready := g.nodes.filter fun a => g.inDegree a = 0 }

/-- Releases the ready node `b`: every edge into it lowers a counter. -/
def release? (g : WaitGraph α) (s : Sweep α) (b : α) (rest : List α) : Option (Sweep α) :=
  { s with ready := rest, released := b :: s.released }.lowerAll? (g.waiters b)

/-- Releases ready nodes in the order in which they became ready, at most `fuel` of them. -/
def sweep? (g : WaitGraph α) : Nat → Sweep α → Option (Sweep α)
  | 0, s => some s
  | fuel + 1, s =>
    match s.ready with
    | [] => some s
    | b :: rest => (g.release? s b rest).bind (sweep? g fuel)

/-- The sweep of the whole graph.  No node is released twice, so as many releases as there are
nodes are enough. -/
def swept? (g : WaitGraph α) : Option (Sweep α) := g.sweep? g.nodes.length g.start

/-- The nodes whose counter is above zero. -/
def Sweep.blocked (s : Sweep α) : List α := (s.counters.filter fun c => 0 < c.2).map Prod.fst

/-- The nodes that a sweep leaves behind. -/
def leftovers (g : WaitGraph α) : List α := (g.swept?.map Sweep.blocked).getD []

/-- The number of nodes that a sweep releases. -/
def releasedCount (g : WaitGraph α) : Nat := (g.swept?.map fun s => s.released.length).getD 0

end WaitGraph

end Backlog
