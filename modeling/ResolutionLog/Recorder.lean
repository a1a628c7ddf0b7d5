import ResolutionLog.Record.Frame
import ResolutionLog.Store

/-! # Recording

A recorder writes the records of one resolution to a store, each as a frame of two parts. The root
record seals the session: nothing is recorded after it, and only then can the store be handed over for
reading. When the medium fails the session has failed, and accepts nothing any more; a record that
has no frame is refused without a trace. -/

namespace ResolutionLog

/-- The action that writes a record: its frame, or the refusal of a record that has none. -/
def Record.writeAction (r : Record) : WriteAction :=
  match r.frame with
  | .ok f => .ofParts [f.header, f.body] (.ok ())
  | .error e => .ofParts [] (.error e)

/-- What a session accepts. -/
inductive SessionState where
  /-- Records of all kinds. -/
  | recording
  /-- Nothing, because the root has been written. -/
  | complete
  /-- Nothing, because the medium has failed. -/
  | failed
deriving DecidableEq, Repr

/-- A recording session over a store. -/
structure Recorder where
  store : Store
  state : SessionState
  /-- The number of records written. -/
  records : Nat
deriving DecidableEq, Repr

namespace Recorder

/-- A session over an empty store. -/
def start (store : Store) : Recorder := ⟨store, .recording, 0⟩

/-- The state of a session after the end of a write. -/
def stateAfter (record : Record) : Except LogError Unit → SessionState
  | .ok () => if record.kind = .root then .complete else .recording
  | .error (.io _) => .failed
  | .error _ => .recording

/-- Write a record. -/
def append (r : Recorder) (record : Record) : Except LogError Unit × Recorder :=
  match r.state with
  | .complete => (.error .storeSealed, r)
  | .failed => (.error .recorderFailed, r)
  | .recording =>
    let (result, store) := r.store.write record.writeAction
    let records := if result.isOk then r.records + 1 else r.records
    (result, ⟨store, stateAfter record result, records⟩)

/-- Register a node. -/
def node (r : Recorder) (key : NodeKey) : Except LogError Unit × Recorder := r.append (.newNode key)

/-- Mark a node as a first-level dependency. -/
def firstLevel (r : Recorder) (key : NodeKey) : Except LogError Unit × Recorder :=
  r.append (.firstLevel key)

/-- Record an edge with the artifacts that the child exposes through it. -/
def parentChild (r : Recorder) (parent child : NodeKey) (artifacts : ArtifactHandle) :
    Except LogError Unit × Recorder :=
  r.append (.parentChild parent child artifacts)

/-- Record a request that found nothing. -/
def unresolved (r : Recorder) (parent : NodeKey) (requested : Selector) (reason : String) :
    Except LogError Unit × Recorder :=
  r.append (.unresolved parent requested reason)

/-- Record the root, which completes the session. -/
def root (r : Recorder) (key : NodeKey) : Except LogError Unit × Recorder := r.append (.root key)

/-- Whether the root has been written. -/
def isSealed (r : Recorder) : Bool := r.state = .complete

/-- Hand the store over for reading. -/
def done (r : Recorder) : Except LogError ReadHandle :=
  match r.state with
  | .complete => .ok r.store.seal
  | .recording => .error .missingRoot
  | .failed => .error .recorderFailed

/-- A complete session stays as it is. -/
theorem append_of_complete {r : Recorder} (h : r.state = .complete) (record : Record) :
    r.append record = (.error .storeSealed, r) := by
  simp [append, h]

/-- A failed session stays as it is. -/
theorem append_of_failed {r : Recorder} (h : r.state = .failed) (record : Record) :
    r.append record = (.error .recorderFailed, r) := by
  simp [append, h]

/-- An open session does what its store makes of the record. -/
theorem append_of_recording {r : Recorder} (h : r.state = .recording) (record : Record) :
    r.append record =
      ((r.store.write record.writeAction).1,
        { store := (r.store.write record.writeAction).2
          state := stateAfter record (r.store.write record.writeAction).1
          records := if (r.store.write record.writeAction).1.isOk then r.records + 1 else r.records }) := by
  rw [append, h]

/-- A store can be handed over exactly after the root. -/
theorem done_eq_ok_iff {r : Recorder} {handle : ReadHandle} :
    r.done = .ok handle ↔ r.state = .complete ∧ handle = r.store.seal := by
  unfold done
  cases h : r.state <;> simp [eq_comm]

end Recorder

end ResolutionLog
