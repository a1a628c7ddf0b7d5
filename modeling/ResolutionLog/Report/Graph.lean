import ResolutionLog.Graph
import ResolutionLog.Report.Json

/-! # Reports on graphs

A report shows a resolved graph in texts: its nodes with their parents and children, its first-level
dependencies, and its failed requests. -/

namespace ResolutionLog

/-- A parent of a node, with the artifacts that the node exposes to it. -/
structure IncomingReport where
  parent : String
  artifacts : List String
deriving DecidableEq, Repr

/-- A node. -/
structure NodeReport where
  id : String
  parents : List IncomingReport
  children : List String
deriving DecidableEq, Repr

/-- A first-level dependency. -/
structure FirstLevelReport where
  requested : String
  selected : String
deriving DecidableEq, Repr

/-- A failed request. -/
structure UnresolvedReport where
  parent : String
  requested : String
  reason : String
deriving DecidableEq, Repr

/-- A graph. -/
structure GraphReport where
  root : String
  nodeCount : Nat
  edgeCount : Nat
  firstLevel : List FirstLevelReport
  nodes : List NodeReport
  unresolved : List UnresolvedReport
deriving DecidableEq, Repr

/-! ## What it shows -/

/-- The report on a node. -/
def ResolvedNode.report (n : ResolvedNode) : NodeReport where
  id := n.key.display
  parents := n.parents.toList.map fun parent =>
    ⟨parent.display, ((n.artifactsFrom? parent).getD ∅).toList.map Artifact.display⟩
  children := n.children.toList.map NodeKey.display

/-- The report on a graph. -/
def Graph.report (g : Graph) : GraphReport where
  root := g.root.display
  nodeCount := g.size
  edgeCount := g.edgeCount
  firstLevel := g.firstLevel.toList.map fun (requested, selected) =>
    ⟨requested.display, selected.display⟩
  nodes := g.nodes.values.map ResolvedNode.report
  unresolved := g.unresolved.map fun (parent, result) =>
    ⟨parent.display, result.requested.display, result.failure?.getD ""⟩

/-! ## How it is printed -/

namespace GraphReport

/-- A heading with the lines below it, after an empty line. -/
def part (heading : String) (lines : List String) : List String := "" :: heading :: lines

/-- A part that is left out when it has no lines. -/
def optionalPart (heading : String) (lines : List String) : List String :=
  if lines.isEmpty then [] else part heading lines

/-- The line of a parent. -/
def incomingLine (i : IncomingReport) : String :=
  let listed := ", ".intercalate i.artifacts
  if i.artifacts.isEmpty then s!"    <- {i.parent}" else s!"    <- {i.parent} [{listed}]"

/-- The lines of a node. -/
def nodeLines (n : NodeReport) : List String := s!"  {n.id}" :: n.parents.map incomingLine

/-- A report for a terminal. -/
def render (r : GraphReport) : String :=
  joinLines <|
    ["Resolution Result", "=================", s!"Root:  {r.root}", s!"Nodes: {r.nodeCount}",
      s!"Edges: {r.edgeCount}"] ++
    optionalPart "First level:" (r.firstLevel.map fun e => s!"  {e.requested} -> {e.selected}") ++
    part "Nodes:" (r.nodes.flatMap nodeLines) ++
    optionalPart "Unresolved:"
      (r.unresolved.map fun e => s!"  {e.parent} -> {e.requested}: {e.reason}")

/-- The fields of a node. -/
def nodeJson (n : NodeReport) : JsonValue :=
  .record
    [("id", .text n.id),
      ("parents", .list (n.parents.map fun i =>
        .record [("parent", .text i.parent), ("artifacts", .texts i.artifacts)])),
      ("children", .texts n.children)]

/-- A report for programs. -/
def json (r : GraphReport) : JsonValue :=
  .record
    [("root", .text r.root), ("node_count", .number r.nodeCount),
      ("edge_count", .number r.edgeCount),
      ("first_level", .list (r.firstLevel.map fun e =>
        .record [("requested", .text e.requested), ("selected", .text e.selected)])),
      ("nodes", .list (r.nodes.map nodeJson)),
      ("unresolved", .list (r.unresolved.map fun e =>
        .record [("parent", .text e.parent), ("requested", .text e.requested),
          ("reason", .text e.reason)]))]

end GraphReport

end ResolutionLog
