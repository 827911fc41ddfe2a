/-
# Nodes of YAML documents

A document is a tree of scalars, sequences and mappings.  A node may carry an anchor and a tag,
and an alias stands for the node with its anchor.  Anchors are numbered; the same number may be
given twice, and then the node that starts later has it.

* `Node`, `Document`: the tree;
* `Node.size`: how many events it takes to spell a node;
* `Node.anchored`: the nodes that have a number, in the order in which they start;
* `Document.table`: what the numbers of a document stand for.
-/
import Backlog.Yaml.Token

namespace Backlog.Yaml

/-- The number and the tag of a node. -/
structure Properties where
  anchor : Option Nat := none
  tag : Option Tag := none
deriving DecidableEq

inductive Node
  | reference (number : Nat)
  | scalar (properties : Properties) (style : Style) (text : String)
  | sequence (properties : Properties) (items : List Node)
  | mapping (properties : Properties) (pairs : List (Node × Node))

instance : Inhabited Node := ⟨.scalar {} .plain ""⟩

namespace Node

/-- A node that is left out. -/
def empty : Node := .scalar {} .plain ""

mutual

/-- How many events it takes to spell a node: one for a scalar or an alias, and two around a
collection. -/
def size : Node → Nat
  | sequence _ items => sizeOfItems items + 2
  | mapping _ pairs => sizeOfPairs pairs + 2
  | _ => 1

def sizeOfItems : List Node → Nat
  | [] => 0
  | n :: rest => n.size + sizeOfItems rest

def sizeOfPairs : List (Node × Node) → Nat
  | [] => 0
  | (k, v) :: rest => k.size + v.size + sizeOfPairs rest

end

/-- A node with its number, if it has one. -/
def numbered (p : Properties) (n : Node) : List (Nat × Node) := (p.anchor.map (·, n)).toList

mutual

/-- The nodes that have a number, in the order in which they start. -/
def anchored : Node → List (Nat × Node)
  | reference _ => []
  | n@(scalar p _ _) => numbered p n
  | n@(sequence p items) => numbered p n ++ anchoredItems items
  | n@(mapping p pairs) => numbered p n ++ anchoredPairs pairs

def anchoredItems : List Node → List (Nat × Node)
  | [] => []
  | n :: rest => n.anchored ++ anchoredItems rest

def anchoredPairs : List (Node × Node) → List (Nat × Node)
  | [] => []
  | (k, v) :: rest => k.anchored ++ v.anchored ++ anchoredPairs rest

end

end Node

/-- A document.  An empty text has no root. -/
structure Document where
  root : Option Node

namespace Document

/-- What the numbers stand for; of several nodes with one number the last one comes first. -/
def table (d : Document) : List (Nat × Node) := (d.root.elim [] Node.anchored).reverse

/-- How often aliases may be followed. -/
def aliasLimit (d : Document) : Nat := 100 * d.root.elim 1 Node.size

end Document

end Backlog.Yaml
