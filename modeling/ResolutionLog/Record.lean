import ResolutionLog.Artifact
import ResolutionLog.Record.Kind
import ResolutionLog.Selector

/-! # Records

A resolution is recorded as a list of records, in the order in which the walk over the graph finds
nodes and edges. -/

namespace ResolutionLog

/-- One event of a resolution. -/
inductive Record where
  /-- A node is registered under its key. -/
  | newNode (key : NodeKey)
  /-- The root is named; nothing follows. -/
  | root (key : NodeKey)
  /-- A node is a first-level dependency of the root. -/
  | firstLevel (key : NodeKey)
  /-- An edge leads from a parent to a child, which exposes a set of artifacts through it. -/
  | parentChild (parent child : NodeKey) (artifacts : ArtifactHandle)
  /-- A request of a parent found nothing, for the given reason. -/
  | unresolved (parent : NodeKey) (requested : Selector) (reason : String)
deriving DecidableEq, Repr

namespace Record

/-- The kind of a record. -/
def kind : Record → RecordKind
  | .newNode _ => .newNode
  | .root _ => .root
  | .firstLevel _ => .firstLevel
  | .parentChild .. => .parentChild
  | .unresolved .. => .unresolved

/-- A record is named when the selector in it, if there is one, could be made from outside. Keys may
hold anything. -/
def Named : Record → Prop
  | .unresolved _ requested _ => requested.Named
  | _ => True

instance : DecidablePred Named
  | .unresolved _ requested _ => inferInstanceAs (Decidable requested.Named)
  | .newNode _ | .root _ | .firstLevel _ | .parentChild .. => inferInstanceAs (Decidable True)

end Record

end ResolutionLog
