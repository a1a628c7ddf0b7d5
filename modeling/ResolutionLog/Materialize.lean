import ResolutionLog.Contents
import ResolutionLog.Graph
import ResolutionLog.Record.Reader

/-! # From a stream to a graph

A stream is turned into a graph in one pass. Each record before the root changes the nodes and the
first level found so far (`Draft.apply`); the root record ends the pass, and nothing after it is read.

Records must come after the nodes that they name: a node is registered once, before every record that
mentions it. A stream that ends without a root, and a node without a parent that is not the root, are
errors too. -/

namespace ResolutionLog

open Std

/-- The part of a graph that the records so far describe. -/
structure Draft where
  nodes : NodeTable
  firstLevel : FirstLevel
deriving DecidableEq

namespace Draft

/-- No record has been read. -/
def empty : Draft := ⟨∅, ∅⟩

/-- Where a record leads: on to a larger draft, or to the end at the root. -/
inductive Progress where
  | more (draft : Draft)
  | root (key : NodeKey)
deriving DecidableEq

/-- Register a node. -/
def addNode (d : Draft) (key : NodeKey) : Except LogError Draft :=
  if key ∈ d.nodes then .error (.duplicateNode key)
  else .ok { d with nodes := d.nodes.insert key (.isolated key) }

/-- The selector that requested a child: the known one, or else the narrowest for its component. -/
def requestFor (contents : Contents) (child : NodeKey) : Except LogError Selector :=
  match contents.requested child with
  | .found selector => .ok selector
  | .missing => .ok (.exact child.component)
  | .aborted => .error .lookupAborted

/-- The artifacts behind a handle. -/
def artifactsFor (contents : Contents) (handle : ArtifactHandle) : Except LogError ArtifactSet :=
  match contents.artifacts handle with
  | .found set => .ok set
  | .missing => .error (.missingArtifacts handle)
  | .aborted => .error .lookupAborted

/-- The nodes with an edge between two of them. -/
def connect (nodes : NodeTable) (parent child : NodeKey) (requested : Selector)
    (set : ArtifactSet) : NodeTable :=
  (nodes.modify parent (·.addChild child requested)).modify child (·.addParent parent set)

/-- Add an edge between two registered nodes. -/
def addEdge (contents : Contents) (d : Draft) (parent child : NodeKey) (handle : ArtifactHandle) :
    Except LogError Draft := do
  d.nodes.require parent
  d.nodes.require child
  let set ← artifactsFor contents handle
  let requested ← requestFor contents child
  return { d with nodes := connect d.nodes parent child requested set }

/-- Enter a registered node in the first level, under the selector that requested it. A node that
was there under the same selector gives way. -/
def addFirstLevel (contents : Contents) (d : Draft) (key : NodeKey) : Except LogError Draft := do
  d.nodes.require key
  match contents.requested key with
  | .found selector => return { d with firstLevel := d.firstLevel.insert selector key }
  | .missing => throw (.missingSelector key)
  | .aborted => throw .lookupAborted

/-- Add a failed request to a registered node. -/
def addUnresolved (d : Draft) (parent : NodeKey) (requested : Selector) (reason : String) :
    Except LogError Draft := do
  d.nodes.require parent
  return { d with nodes := d.nodes.modify parent (·.addFailure requested reason) }

/-- Take one record into account. -/
def apply (contents : Contents) (d : Draft) : Record → Except LogError Progress
  | .newNode key => return .more (← d.addNode key)
  | .parentChild parent child handle => return .more (← d.addEdge contents parent child handle)
  | .firstLevel key => return .more (← d.addFirstLevel contents key)
  | .unresolved parent requested reason =>
    return .more (← d.addUnresolved parent requested reason)
  | .root key => do
    d.nodes.require key
    return .root key

/-- The graph of a draft whose root has been found. -/
def finish (d : Draft) (root : NodeKey) : Except LogError Graph :=
  Graph.assemble root d.firstLevel d.nodes

end Draft

open RecordReader in
/-- Read records into a draft until the root is found. -/
def materializeFrom (contents : Contents) (d : Draft) (r : RecordReader) :
    Except LogError Graph × RecordReader :=
  match _h : next r with
  | .error e r => (.error e, r)
  | .ok none r => (.error (.rootNotFound r.records), r)
  | .ok (some record) r =>
    match d.apply contents record with
    | .error e => (.error e, r)
    | .ok (.root key) => (d.finish key, r)
    | .ok (.more d) => materializeFrom contents d r
termination_by r.remaining
decreasing_by exact remaining_of_next _h

/-- The graph that a source of bytes describes, with the reader where the pass ended. -/
def materialize (contents : Contents) (source : ByteSource) : Except LogError Graph × RecordReader :=
  materializeFrom contents .empty (.start source)

/-- The graph that some bytes describe. -/
def materializeBytes (contents : Contents) (bytes : List UInt8) : Except LogError Graph :=
  (materialize contents (.plain bytes)).1

end ResolutionLog
