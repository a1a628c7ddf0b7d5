import ResolutionLog.Artifact
import ResolutionLog.Component
import ResolutionLog.Record.Kind

/-! # Errors

Everything that can go wrong while a resolution is recorded, stored or read back, as causes, with
the wording of all messages in one place. A dependency for which resolution found nothing is no
error: it is recorded like any other edge. -/

namespace ResolutionLog

/-! ## Causes -/

/-- Why bytes are no encoding of a field. -/
inductive WireFault where
  /-- The bytes end before the field does. -/
  | endOfInput
  /-- A number has too many groups, or its last group is too large. -/
  | badVarint
  /-- An optional field starts with a byte other than 0 and 1. -/
  | badOption
  /-- A text is not valid UTF-8. -/
  | badText
  /-- The index of a variant is out of range. -/
  | unknownVariant
deriving DecidableEq, Repr

/-- The kinds of failures that readers tell apart. -/
inductive FaultKind where
  /-- A request was interrupted, and may be made again. -/
  | interrupted
  /-- The data ended before a request for an exact number of bytes was met. -/
  | unexpectedEnd
  /-- Any other failure. -/
  | other
deriving DecidableEq, Repr

/-- Why a medium could not be read or written. -/
structure IoFault where
  /-- Whether the operating system refused, with a text of its own; otherwise the medium itself reports the
  failure. -/
  bySystem : Bool
  kind : FaultKind
  text : String
deriving DecidableEq, Repr

/-- A refusal of the operating system that readers need not tell from others. -/
def IoFault.system (text : String) : IoFault := ⟨true, .other, text⟩

/-- A failure that a medium itself reports and that readers need not tell from others. -/
def IoFault.reported (text : String) : IoFault := ⟨false, .other, text⟩

/-- Why something could not be encoded. -/
inductive EncodeFault where
  /-- The body of a record is longer than a frame may hold. -/
  | oversizedBody (kind : RecordKind) (length : Nat)
  /-- A failure stated in words. -/
  | reported (text : String)
deriving DecidableEq, Repr

/-- Why something could not be decoded. -/
inductive DecodeFault where
  /-- A field of a record is broken. -/
  | recordField (kind : RecordKind) (fault : WireFault)
  /-- A field of a selector is broken. -/
  | selectorField (fault : WireFault)
  /-- A selector is missing altogether. -/
  | missingSelectorTag
  /-- Bytes are left after the last field of a record. -/
  | trailingBytes (kind : RecordKind) (count : Nat)
  /-- A failure stated in words. -/
  | reported (text : String)
deriving DecidableEq, Repr

/-- What can go wrong with a recorded resolution. -/
inductive LogError where
  /-- A part of an identifier is blank. -/
  | blankIdentifier (part : String)
  /-- A medium failed. -/
  | io (fault : IoFault)
  /-- A value has no encoding. -/
  | unencodable (fault : EncodeFault)
  /-- Bytes or text encode no value. -/
  | undecodable (fault : DecodeFault)
  /-- A record was refused because the root has been written. -/
  | storeSealed
  /-- The session ended before a root was written. -/
  | missingRoot
  /-- A record was refused because the medium failed earlier. -/
  | recorderFailed
  /-- A handle was read after it was closed. -/
  | storeClosed
  /-- No kind of record has this tag. -/
  | unknownRecord (tag : UInt8) (offset records : Nat) (last : Option RecordKind)
  /-- A record ends early. -/
  | truncatedRecord (kind : RecordKind) (offset : Nat)
  /-- A record declares a body longer than a frame may hold. -/
  | oversizedRecord (kind : RecordKind) (offset length : Nat)
  /-- A record names a node that is not registered. -/
  | unexpectedNode (key : NodeKey) (known : List NodeKey)
  /-- A node other than the root has no parent. -/
  | orphanNode (key : NodeKey) (known : List NodeKey)
  /-- A node is registered a second time. -/
  | duplicateNode (key : NodeKey)
  /-- The stream ends without a root. -/
  | rootNotFound (records : Nat)
  /-- No kind of selector has this tag. -/
  | unsupportedSelector (tag : UInt8)
  /-- The contents name no selector for a first-level node. -/
  | missingSelector (key : NodeKey)
  /-- The contents hold no artifact set for a handle. -/
  | missingArtifacts (handle : ArtifactHandle)
  /-- An earlier load was abandoned while it held the cache. -/
  | cachePoisoned
  /-- The caller's contents gave up in the middle of a look-up. -/
  | lookupAborted
deriving DecidableEq, Repr

/-! ## Messages -/

/-- The wording of a broken field. -/
def WireFault.message : WireFault → String
  | .endOfInput => "Hit the end of buffer, expected more data"
  | .badVarint =>
    "Found a varint that didn't terminate. Is the usize too big for this platform?"
  | .badOption => "Found an Option discriminant that wasn't 0 or 1"
  | .badText => "Tried to parse invalid utf-8"
  | .unknownVariant => "Serde Deserialization Error"

instance : ToString WireFault := ⟨WireFault.message⟩

instance : ToString IoFault := ⟨IoFault.text⟩

/-- The wording of a failed encoding. -/
def EncodeFault.message : EncodeFault → String
  | .oversizedBody kind length =>
    s!"{kind} record body of {length} bytes exceeds the frame limit"
  | .reported text => text

instance : ToString EncodeFault := ⟨EncodeFault.message⟩

/-- The wording of a failed decoding. -/
def DecodeFault.message : DecodeFault → String
  | .recordField kind fault => s!"Failed to decode {kind} record: {fault}"
  | .selectorField fault => s!"Failed to decode selector fields: {fault}"
  | .missingSelectorTag => "Missing selector discriminant"
  | .trailingBytes kind count => s!"{kind} record has {count} trailing bytes"
  | .reported text => text

instance : ToString DecodeFault := ⟨DecodeFault.message⟩

/-- How many known nodes a message lists before it only counts the others. -/
def listedNodes : Nat := 32

/-- The known nodes in brackets: the first of them by name, the others as a number. -/
def showKnown (known : List NodeKey) : String :=
  let named := (known.take listedNodes).map NodeKey.display
  let others := known.length - listedNodes
  let counted := if others = 0 then [] else [s!"... {others} more"]
  let listed := ", ".intercalate (named ++ counted)
  s!"[{listed}]"

/-- The name of a kind, or the word for none. -/
def showLast : Option RecordKind → String
  | some kind => kind.display
  | none => "none"

/-- The wording of an error. -/
def LogError.message : LogError → String
  | .blankIdentifier part => s!"Invalid identifier: {part} must not be empty"
  | .io fault => s!"I/O error: {fault}"
  | .unencodable fault => s!"Serialization error: {fault}"
  | .undecodable fault => s!"Deserialization error: {fault}"
  | .storeSealed => "Result store is sealed: ROOT was already written"
  | .missingRoot => "Result store cannot be sealed: no ROOT record was written"
  | .recorderFailed => "Recorder failed earlier in this session and accepts no more records"
  | .storeClosed => "Read handle is closed"
  | .unknownRecord tag offset records last =>
    s!"Corrupt result stream: unknown record type {tag} at byte {offset} " ++
      s!"after {records} records (last: {showLast last})"
  | .truncatedRecord kind offset =>
    s!"Corrupt result stream: truncated {kind} record at byte {offset}"
  | .oversizedRecord kind offset length =>
    s!"Corrupt result stream: {kind} record at byte {offset} declares {length} body bytes"
  | .unexpectedNode key known => s!"Unexpected id {key}. Seen ids: {showKnown known}"
  | .orphanNode key known =>
    s!"Corrupt result stream: non-root node {key} has no parents. Seen ids: {showKnown known}"
  | .duplicateNode key => s!"Corrupt result stream: node {key} registered twice"
  | .rootNotFound records => s!"Corrupt result stream: no ROOT record after {records} records"
  | .unsupportedSelector tag => s!"Unsupported component selector type {tag}"
  | .missingSelector key => s!"No requested selector known for {key}"
  | .missingArtifacts handle => s!"No artifact set known for handle {handle}"
  | .cachePoisoned => "Result cache lock poisoned"
  | .lookupAborted => "Contents lookup aborted"

instance : ToString LogError := ⟨LogError.message⟩

end ResolutionLog
