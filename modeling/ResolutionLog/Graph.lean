import ResolutionLog.Artifact
import ResolutionLog.Error
import ResolutionLog.Selector
import Std.Data.ExtTreeMap

/-! # Resolved graphs

The result of a resolution: a table of nodes, the root among them, and the first-level dependencies by
the selector that asked for them. A node knows its parents, its children, the artifacts that come in
through each parent, and the results of all its requests in the order in which they were recorded,
failed ones included.

`Graph.assemble` accepts a table when every key that it mentions is in it and when only the root has
no parent. -/

namespace ResolutionLog

open Std

/-! ## Results of requests -/

/-- A request of a node with what it came to. -/
structure DependencyResult where
  requested : Selector
  /-- The selected node, if there is one. -/
  selected? : Option NodeKey
  /-- The reason of a failure, if the request failed. -/
  failure? : Option String
deriving DecidableEq, Repr

namespace DependencyResult

/-- A request that selected a node. -/
def resolved (requested : Selector) (key : NodeKey) : DependencyResult := ⟨requested, some key, none⟩

/-- A request that found nothing. -/
def failed (requested : Selector) (reason : String) : DependencyResult := ⟨requested, none, some reason⟩

/-- Whether the request selected a node. -/
def isResolved (d : DependencyResult) : Bool := d.selected?.isSome

/-- Results are ordered by request, failures before selections, then by selected key or reason. -/
instance : Ord DependencyResult :=
  ⟨compareLex (compareOn requested) (compareLex (compareOn selected?) (compareOn failure?))⟩

instance : TransOrd DependencyResult :=
  inferInstanceAs (TransCmp
    (compareLex (compareOn requested) (compareLex (compareOn selected?) (compareOn failure?))))

instance : LawfulEqOrd DependencyResult where
  eq_of_compare {a b} h := by
    have h' : compareLex (compareOn requested)
      (compareLex (compareOn selected?) (compareOn failure?)) a b = .eq := h
    simp only [compareLex_eq_eq, compareOn, Std.compare_eq_iff_eq] at h'
    cases a
    cases b
    simp_all

end DependencyResult

/-! ## Nodes -/

/-- A node of a resolved graph. -/
structure ResolvedNode where
  key : NodeKey
  parents : ExtTreeSet NodeKey
  children : ExtTreeSet NodeKey
  /-- The artifacts that the node exposes to a parent. -/
  parentArtifacts : ExtTreeMap NodeKey ArtifactSet
  /-- The results of the requests of this node, the latest first. -/
  results : List DependencyResult
deriving DecidableEq

namespace ResolvedNode

/-- A node without edges. -/
def isolated (key : NodeKey) : ResolvedNode := ⟨key, ∅, ∅, ∅, []⟩

/-- The results of the requests of a node, in the order of the stream. -/
def dependencies (n : ResolvedNode) : List DependencyResult := n.results.reverse

/-- The artifacts that a node exposes to a parent. -/
def artifactsFrom? (n : ResolvedNode) (parent : NodeKey) : Option ArtifactSet :=
  n.parentArtifacts[parent]?

/-- The artifacts that a node exposes to any of its parents. -/
def allArtifacts (n : ResolvedNode) : ArtifactSet :=
  n.parentArtifacts.foldl (fun all _ set => all ∪ set) ∅

/-- The node with an edge from a parent; artifacts of a repeated edge are added to the others. -/
def addParent (n : ResolvedNode) (parent : NodeKey) (set : ArtifactSet) : ResolvedNode :=
  { n with
    parents := n.parents.insert parent
    parentArtifacts := n.parentArtifacts.insert parent (n.parentArtifacts.getD parent ∅ ∪ set) }

/-- The node with an edge to a child; only the first edge to a child is the result of a request. -/
def addChild (n : ResolvedNode) (child : NodeKey) (requested : Selector) : ResolvedNode :=
  if child ∈ n.children then n
  else { n with
    children := n.children.insert child
    results := .resolved requested child :: n.results }

/-- The node with a failed request. -/
def addFailure (n : ResolvedNode) (requested : Selector) (reason : String) : ResolvedNode :=
  { n with results := .failed requested reason :: n.results }

/-- A node without edges has no results. -/
@[simp] theorem dependencies_isolated (key : NodeKey) : (isolated key).dependencies = [] := rfl

/-- A parent adds no result. -/
@[simp] theorem dependencies_addParent (n : ResolvedNode) (parent : NodeKey) (set : ArtifactSet) :
    (n.addParent parent set).dependencies = n.dependencies := rfl

/-- The first edge to a child adds its result at the end. -/
theorem dependencies_addChild {n : ResolvedNode} {child : NodeKey} (h : child ∉ n.children)
    (requested : Selector) :
    (n.addChild child requested).dependencies = n.dependencies ++ [.resolved requested child] := by
  simp [addChild, h, dependencies]

end ResolvedNode

/-! ## Graphs -/

/-- The nodes of a graph by their keys. -/
abbrev NodeTable := ExtTreeMap NodeKey ResolvedNode

/-- The first-level dependencies of a graph by their requests. -/
abbrev FirstLevel := ExtTreeMap Selector NodeKey

/-- A resolved graph. -/
structure Graph where
  root : NodeKey
  firstLevel : FirstLevel
  nodes : NodeTable
deriving DecidableEq

/-- The key itself if the table holds a node for it. -/
def NodeTable.require (nodes : NodeTable) (key : NodeKey) : Except LogError Unit :=
  if key ∈ nodes then .ok () else .error (.unexpectedNode key nodes.keys)

/-- A number of each node, summed over all nodes. -/
def NodeTable.total (nodes : NodeTable) (count : ResolvedNode → Nat) : Nat :=
  nodes.values.foldr (fun node sum => count node + sum) 0

namespace Graph

/-- The smallest node other than the root that has no parent. -/
def orphan? (root : NodeKey) (nodes : NodeTable) : Option ResolvedNode :=
  nodes.values.find? fun node => node.key ≠ root ∧ node.parents.isEmpty

/-- The graph with this root, first level and table of nodes. The root is looked for first, then the
nodes of the first level, then the parents and children of each node in turn, and last a node without
a parent. -/
def assemble (root : NodeKey) (firstLevel : FirstLevel) (nodes : NodeTable) :
    Except LogError Graph := do
  nodes.require root
  firstLevel.values.forM nodes.require
  nodes.values.forM fun node =>
    (node.parents.toList ++ node.children.toList).forM nodes.require
  match orphan? root nodes with
  | some node => throw (.orphanNode node.key nodes.keys)
  | none => return ⟨root, firstLevel, nodes⟩

/-- The node with a given key. -/
def node? (g : Graph) (key : NodeKey) : Option ResolvedNode := g.nodes[key]?

/-- The node of the root. -/
def rootNode? (g : Graph) : Option ResolvedNode := g.node? g.root

/-- The node that a first-level request selected. -/
def firstLevelNode? (g : Graph) (requested : Selector) : Option ResolvedNode := do
  g.node? (← g.firstLevel[requested]?)

/-- The results of the requests of a node; none for a key that is not in the graph. -/
def dependenciesOf (g : Graph) (key : NodeKey) : List DependencyResult :=
  match g.node? key with
  | some node => node.dependencies
  | none => []

/-- The artifacts that a child exposes to a parent. -/
def parentArtifacts? (g : Graph) (parent child : NodeKey) : Option ArtifactSet := do
  (← g.node? child).artifactsFrom? parent

/-- All failed requests with the node that made them, in the order of the nodes. -/
def unresolved (g : Graph) : List (NodeKey × DependencyResult) :=
  g.nodes.values.flatMap fun node =>
    (node.dependencies.filter fun d => !d.isResolved).map fun d => (node.key, d)

/-- The number of nodes. -/
def size (g : Graph) : Nat := g.nodes.size

/-- The number of edges: each child of each node counts once. -/
def edgeCount (g : Graph) : Nat := g.nodes.total (·.children.size)

end Graph

end ResolutionLog
