import ResolutionLog.Cache
import ResolutionLog.Fixture.Parse
import ResolutionLog.Recorder
import ResolutionLog.Report.Graph
import Std.Data.ExtTreeMap

/-! # Result fixtures

A result fixture describes a resolution: its nodes under names of their own, its edges and failed
requests between names, and which nodes are first-level dependencies and root. `ResultFixture.record`
records what it describes, nodes first, then edges, first-level dependencies, failed requests, and the
root. It is replayed by loading what was recorded and reporting on it (`ResultFixture.replay`). -/

namespace ResolutionLog

open Std

/-! ## What a fixture says -/

/-- A node: a module or a project, and not both, under a name. -/
structure NodeFixture where
  name : String
  moduleText? : Option String
  projectPath? : Option String
  build : String
  configuration : String
  /-- What requested the node, if not the node itself in its own version. -/
  requested? : Option String
deriving DecidableEq, Repr

/-- An edge between names, with the files that the child exposes through it. -/
structure EdgeFixture where
  parent : String
  child : String
  files : List String
deriving DecidableEq, Repr

/-- A request that found nothing. -/
structure UnresolvedFixture where
  parent : String
  requested : String
  reason : String
deriving DecidableEq, Repr

/-- A resolution. -/
structure ResultFixture where
  root : String
  firstLevel : List String
  nodes : List NodeFixture
  edges : List EdgeFixture
  unresolved : List UnresolvedFixture
deriving DecidableEq, Repr

/-! ## How it is written -/

/-- The configuration of a node that names none. -/
def defaultConfiguration : String := "default"

/-- The form of a node. -/
def NodeFixture.form : Form NodeFixture where
  name := "NodeFixture"
  blank := ⟨"", none, none, rootBuild, defaultConfiguration, none⟩
  fields :=
    [.make "name" .required readText fun n name => { n with name },
      .make "module" .optional readText? fun n moduleText? => { n with moduleText? },
      .make "project" .optional readText? fun n projectPath? => { n with projectPath? },
      .make "build" .defaulted readText fun n build => { n with build },
      .make "configuration" .defaulted readText fun n configuration => { n with configuration },
      .make "requested" .optional readText? fun n requested? => { n with requested? }]

/-- The form of an edge. -/
def EdgeFixture.form : Form EdgeFixture where
  name := "EdgeFixture"
  blank := ⟨"", "", []⟩
  fields :=
    [.make "parent" .required readText fun e parent => { e with parent },
      .make "child" .required readText fun e child => { e with child },
      .make "artifacts" .defaulted (readList readText) fun e files => { e with files }]

/-- The form of a failed request. -/
def UnresolvedFixture.form : Form UnresolvedFixture where
  name := "UnresolvedFixture"
  blank := ⟨"", "", ""⟩
  fields :=
    [.make "parent" .required readText fun u parent => { u with parent },
      .make "requested" .required readText fun u requested => { u with requested },
      .make "reason" .required readText fun u reason => { u with reason }]

/-- The form of a resolution. -/
def ResultFixture.form : Form ResultFixture where
  name := "ResultFixture"
  blank := ⟨"", [], [], [], []⟩
  fields :=
    [.make "root" .required readText fun f root => { f with root },
      .make "first_level" .defaulted (readList readText) fun f firstLevel => { f with firstLevel },
      .make "node" .defaulted (readList NodeFixture.form.read) fun f nodes => { f with nodes },
      .make "edge" .defaulted (readList EdgeFixture.form.read) fun f edges => { f with edges },
      .make "unresolved" .defaulted (readList UnresolvedFixture.form.read)
        fun f unresolved => { f with unresolved }]

/-- The fixture that a document says. -/
def ResultFixture.parse (text : String) : Except FixtureError ResultFixture :=
  ResultFixture.form.parse .resultFixture text

/-! ## What it describes -/

/-- The component that a node is. -/
def NodeFixture.component (n : NodeFixture) : Except FixtureError ComponentId :=
  match n.moduleText?, n.projectPath? with
  | some text, none => (ModuleId.parse text).map .module
  | none, some path => FixtureError.ofLog (ComponentId.checkedProject n.build path)
  | _, _ => .error (.ambiguousNode n.name)

/-- The key of a node. -/
def NodeFixture.key (n : NodeFixture) : Except FixtureError NodeKey := do
  FixtureError.ofLog (NodeKey.checked (← n.component) n.configuration)

/-- What requested a node with this key. -/
def NodeFixture.selector (n : NodeFixture) (key : NodeKey) : Except FixtureError Selector :=
  match n.requested? with
  | some text => Selector.parse text
  | none => .ok (.exact key.component)

/-! ## Recording it -/

/-- A recording with the contents that belong to it, and the keys of the named nodes. -/
structure FixtureRecording where
  recorder : Recorder
  tables : ContentsTables
  keys : ExtTreeMap String NodeKey

namespace FixtureRecording

/-- The key of the node with a name; of several the last counts. -/
def key (s : FixtureRecording) (name : String) : Except FixtureError NodeKey :=
  match s.keys[name]? with
  | some key => .ok key
  | none => .error (.unknownNode name)

/-- The recording after a call of its recorder, if that succeeds. -/
def after (s : FixtureRecording) (call : Recorder → Except LogError Unit × Recorder) :
    Except FixtureError FixtureRecording :=
  let (result, recorder) := call s.recorder
  (FixtureError.ofLog result).map fun _ => { s with recorder }

/-- Record a node. -/
def addNode (s : FixtureRecording) (n : NodeFixture) : Except FixtureError FixtureRecording := do
  let key ← n.key
  let requested ← n.selector key
  let s ← s.after (·.node key)
  return { s with tables := s.tables.request key requested, keys := s.keys.insert n.name key }

/-- Record an edge. -/
def addEdge (s : FixtureRecording) (e : EdgeFixture) : Except FixtureError FixtureRecording := do
  let set ← FixtureError.ofLog (ArtifactSet.ofFileNames e.files)
  let (handle, tables) := s.tables.register set
  let parent ← s.key e.parent
  let child ← s.key e.child
  { s with tables }.after (·.parentChild parent child handle)

/-- Record a first-level dependency. -/
def addFirstLevel (s : FixtureRecording) (name : String) : Except FixtureError FixtureRecording := do
  let key ← s.key name
  s.after (·.firstLevel key)

/-- Record a failed request. -/
def addUnresolved (s : FixtureRecording) (u : UnresolvedFixture) :
    Except FixtureError FixtureRecording := do
  let parent ← s.key u.parent
  let requested ← Selector.parse u.requested
  s.after (·.unresolved parent requested u.reason)

/-- Record the root. -/
def addRoot (s : FixtureRecording) (name : String) : Except FixtureError FixtureRecording := do
  let key ← s.key name
  s.after (·.root key)

end FixtureRecording

/-- Record what a fixture describes in an empty store. -/
def ResultFixture.record (f : ResultFixture) (store : Store) :
    Except FixtureError FixtureRecording := do
  let s ← f.nodes.foldlM FixtureRecording.addNode ⟨.start store, .empty, ∅⟩
  let s ← f.edges.foldlM FixtureRecording.addEdge s
  let s ← f.firstLevel.foldlM FixtureRecording.addFirstLevel s
  let s ← f.unresolved.foldlM FixtureRecording.addUnresolved s
  s.addRoot f.root

/-! ## Replays -/

/-- The graph of what a fixture describes, recorded in an empty store. -/
def ResultFixture.load (f : ResultFixture) (store : Store) : Except FixtureError Graph := do
  let recording ← f.record store
  let handle ← FixtureError.ofLog recording.recorder.done
  FixtureError.ofLog ((ResultCache.ofHandle handle).load recording.tables.contents).1

/-- The report on what a fixture describes. -/
def ResultFixture.replay (f : ResultFixture) (store : Store) : Except FixtureError GraphReport :=
  (f.load store).map Graph.report

end ResolutionLog
