import ResolutionLog.ByteSource
import ResolutionLog.Journal

/-! # Stores

A store keeps the bytes of one recorded resolution. It is written by actions, each of which writes
some parts and then succeeds or fails; bytes that an action has written stay even if it fails. When
the store is sealed, its bytes can be read through a handle, from the first byte each time, until the
handle is closed.

There are four media. Memory takes everything. A spilling store starts in memory and moves to a file
once more than a threshold has been written; moving fails if no file can be made. A limited medium
refuses what would take it over its capacity. A breaking medium works for a while, then cuts a part off
somewhere, and takes nothing after that.

A file is written through a buffer, which holds small parts back until it is full or flushed. A sealed file is
read from where it stands, so that each reading has to rewind it first, and through a buffer as well. -/

namespace ResolutionLog

/-! ## Actions -/

/-- What an action does to a store. -/
inductive WriteStep where
  /-- Append a part. -/
  | part (bytes : List UInt8)
  /-- Have everything passed on that is held back. -/
  | flush
deriving DecidableEq, Repr

/-- The part that a step appends, if it appends one. -/
def WriteStep.part? : WriteStep → Option (List UInt8)
  | .part bytes => some bytes
  | .flush => none

/-- An attempt to append bytes to a store. -/
structure WriteAction where
  /-- What is done, one after the other. -/
  steps : List WriteStep
  /-- How the action ends after that. -/
  outcome : Except LogError Unit

namespace WriteAction

/-- The action that appends some parts without flushing. -/
def ofParts (parts : List (List UInt8)) (outcome : Except LogError Unit) : WriteAction :=
  ⟨parts.map .part, outcome⟩

/-- The parts that an action appends. -/
def parts (a : WriteAction) : List (List UInt8) := a.steps.filterMap WriteStep.part?

/-- All bytes of an action. -/
def bytes (a : WriteAction) : List UInt8 := joinPieces a.parts

/-- An action that only writes parts writes these. -/
@[simp] theorem parts_ofParts (parts : List (List UInt8)) (outcome : Except LogError Unit) :
    (ofParts parts outcome).parts = parts := by
  simp only [WriteAction.parts, ofParts, List.filterMap_map]
  exact List.filterMap_some

/-- An action that only writes parts ends as it is told to. -/
@[simp] theorem outcome_ofParts (parts : List (List UInt8)) (outcome : Except LogError Unit) :
    (ofParts parts outcome).outcome = outcome := rfl

/-- The bytes of an action are those of its parts. -/
@[simp] theorem bytes_eq (a : WriteAction) : a.bytes = a.parts.flatten :=
  joinPieces_eq_flatten a.parts

end WriteAction

/-! ## Configuration -/

/-- When a store moves to a file, and where that file is. -/
structure StoreConfig where
  /-- The number of written bytes beyond which a store moves to a file. -/
  spillThreshold : Nat
  /-- The directory of the file, if not the usual one for temporary files. -/
  spillDirectory : Option String
deriving DecidableEq, Repr

namespace StoreConfig

/-- A store that moves beyond one mebibyte. -/
def default : StoreConfig := ⟨1024 * 1024, none⟩

/-- A store that never moves. -/
def inMemory : StoreConfig := ⟨UInt64.size - 1, none⟩

/-- A store that moves with the first record. -/
def alwaysSpill : StoreConfig := ⟨0, none⟩

end StoreConfig

/-! ## Files -/

/-- A file that is written through a buffer. -/
structure FileWriter where
  /-- What is in the file. -/
  file : Journal
  /-- What the buffer holds back. -/
  pending : Journal
deriving DecidableEq, Repr

namespace FileWriter

/-- The number of bytes that the buffer has room for. -/
def capacity : Nat := 8 * 1024

/-- A new file. -/
def empty : FileWriter := ⟨.empty, .empty⟩

/-- All bytes written so far, whether they are in the file already or not. -/
def content (w : FileWriter) : List UInt8 := w.file.bytes ++ w.pending.bytes

/-- Empty the buffer into the file. -/
def flush (w : FileWriter) : FileWriter := ⟨w.file.append w.pending.bytes, .empty⟩

/-- Write a part. What finds no more room in the buffer is preceded by what is there, and what is as
large as the buffer goes past it. -/
def put (w : FileWriter) (part : List UInt8) : FileWriter :=
  let w := if capacity < w.pending.size + part.length then w.flush else w
  if part.length < capacity then { w with pending := w.pending.append part }
  else { w with file := w.file.append part }

/-- An empty file has no bytes. -/
@[simp] theorem content_empty : empty.content = [] := rfl

/-- Flushing loses nothing. -/
@[simp] theorem content_flush (w : FileWriter) : w.flush.content = w.content := by
  simp [content, flush]

/-- A part comes after everything else, wherever it goes. -/
@[simp] theorem content_put (w : FileWriter) (part : List UInt8) :
    (w.put part).content = w.content ++ part := by
  have hempty : ∀ v : FileWriter, v.pending.size + part.length ≤ capacity → ¬part.length < capacity →
      v.pending.bytes = [] := by
    -- a part that fills the buffer finds room only in an empty one
    intro v hroom hlarge
    rw [Journal.size_eq_length] at hroom
    exact List.eq_nil_of_length_eq_zero (by omega)
  unfold put
  split
  · rw [← content_flush w]
    split
    · simp [content]
    · simp [content, flush]
  · next hroom =>
    split
    · simp [content]
    · next hlarge =>
      have hpending : w.pending.bytes = [] := hempty w (by omega) hlarge
      simp [content, hpending]

end FileWriter

/-! ## The spilling store -/

/-- Where the bytes of a spilling store are. -/
inductive SpillMedium where
  | memory (journal : Journal)
  | file (writer : FileWriter)
deriving DecidableEq, Repr

namespace SpillMedium

/-- All bytes appended so far. -/
def content : SpillMedium → List UInt8
  | .memory journal => journal.bytes
  | .file writer => writer.content

/-- Take a step of an action. Memory holds nothing back. -/
def step : SpillMedium → WriteStep → SpillMedium
  | .memory journal, .part bytes => .memory (journal.append bytes)
  | .memory journal, .flush => .memory journal
  | .file writer, .part bytes => .file (writer.put bytes)
  | .file writer, .flush => .file writer.flush

/-- Take the steps of an action. -/
def run (m : SpillMedium) (a : WriteAction) : SpillMedium := a.steps.foldl step m

/-- Whether the bytes are in a file. -/
def inFile : SpillMedium → Bool
  | .memory _ => false
  | .file _ => true

/-- A step appends its part, if it has one. -/
@[simp] theorem content_step (m : SpillMedium) (s : WriteStep) :
    (m.step s).content = m.content ++ s.part?.getD [] := by
  cases m <;> cases s <;> simp [step, content, WriteStep.part?]

/-- A step does not take a medium to its file. -/
@[simp] theorem inFile_step (m : SpillMedium) (s : WriteStep) : (m.step s).inFile = m.inFile := by
  cases m <;> cases s <;> rfl

/-- The bytes of an action come after everything else, wherever they go. -/
@[simp] theorem content_run (m : SpillMedium) (a : WriteAction) :
    (m.run a).content = m.content ++ a.bytes := by
  obtain ⟨steps, outcome⟩ := a
  rw [WriteAction.bytes_eq]
  simp only [run, WriteAction.parts]
  induction steps generalizing m with
  | nil => simp
  | cons s steps ih => cases s <;> simp [ih, WriteStep.part?, List.filterMap_cons]

/-- An action stays on its medium. -/
@[simp] theorem inFile_run (m : SpillMedium) (a : WriteAction) : (m.run a).inFile = m.inFile := by
  obtain ⟨steps, outcome⟩ := a
  simp only [run]
  induction steps generalizing m with
  | nil => rfl
  | cons s steps ih => rw [List.foldl_cons, ih, inFile_step]

end SpillMedium

/-- A store that moves to a file when it grows. -/
structure SpillStore where
  threshold : Nat
  /-- Why no file can be made in the configured directory, if none can. -/
  fault? : Option IoFault
  medium : SpillMedium
  /-- The number of bytes that succeeding actions have appended. -/
  written : Nat
deriving DecidableEq, Repr

namespace SpillStore

/-- An empty store for a configuration. -/
def start (config : StoreConfig) (fault? : Option IoFault) : SpillStore :=
  ⟨config.spillThreshold, fault?, .memory .empty, 0⟩

/-- All bytes appended so far. -/
def content (s : SpillStore) : List UInt8 := s.medium.content

/-- Whether the bytes are in a file. -/
def spilled (s : SpillStore) : Bool := s.medium.inFile

/-- Move from memory to a new file. -/
def spill (s : SpillStore) : Except LogError Unit × SpillStore :=
  match s.medium, s.fault? with
  | .file _, _ => (.ok (), s)
  | .memory journal, none => (.ok (), { s with medium := .file (FileWriter.empty.put journal.bytes) })
  | .memory _, some fault => (.error (.io fault), s)

/-- Run an action. The bytes of a failing action stay but are not counted. After a succeeding one the
store moves to a file if its count is above the threshold. -/
def write (s : SpillStore) (a : WriteAction) : Except LogError Unit × SpillStore :=
  let s := { s with medium := s.medium.run a }
  match a.outcome with
  | .error e => (.error e, s)
  | .ok () =>
    let s := { s with written := s.written + a.bytes.length }
    if s.spilled ∨ s.written ≤ s.threshold then (.ok (), s) else s.spill

/-- Moving to a file loses nothing, whether it succeeds or not. -/
@[simp] theorem content_spill (s : SpillStore) : s.spill.2.content = s.content := by
  obtain ⟨threshold, fault?, medium, written⟩ := s
  cases medium <;> cases fault? <;> simp [spill, content, SpillMedium.content]

/-- The visible state of a store, for diagnosis. -/
def display (s : SpillStore) : String :=
  s!"SpillStore \x7b spilled: {s.spilled}, written: {s.written}, .. \x7d"

/-- Whatever becomes of an action, its bytes are appended. -/
@[simp] theorem content_write (s : SpillStore) (a : WriteAction) :
    (s.write a).2.content = s.content ++ a.bytes := by
  unfold write
  simp only
  split
  · exact SpillMedium.content_run _ _
  · split
    · exact SpillMedium.content_run _ _
    · exact (content_spill _).trans (SpillMedium.content_run _ _)

/-- A store in a file stays there. -/
theorem spilled_write {s : SpillStore} (h : s.spilled = true) (a : WriteAction) :
    (s.write a).2.spilled = true := by
  have hrun : (s.medium.run a).inFile = true := (SpillMedium.inFile_run s.medium a).trans h
  unfold write
  simp only [spilled, hrun, true_or, if_true]
  split <;> exact hrun

end SpillStore

/-! ## All media -/

/-- A store on one of the media. -/
inductive Store where
  | memory (journal : Journal)
  | spill (store : SpillStore)
  /-- A limited medium with room for so many more bytes. -/
  | limited (room : Nat) (journal : Journal)
  /-- A medium that takes so many more parts, then so many bytes of one more part, and then nothing,
  with the failure that it reports from then on. -/
  | breaking (parts rest : Nat) (fault : IoFault) (journal : Journal)
deriving DecidableEq, Repr

/-- The failure of a medium that is full. -/
def diskFull : LogError := .io (.reported "disk full")

namespace Store

/-- An empty store in memory. -/
def inMemory : Store := .memory .empty

/-- An empty store for a configuration, and why no file can be made in its directory, if none can. -/
def start (config : StoreConfig) (fault? : Option IoFault) : Store :=
  .spill (.start config fault?)

/-- Append parts to a journal as long as there is room for them; the result says whether all went in,
and how much room is left. -/
def appendWithin (room : Nat) (journal : Journal) : List (List UInt8) → Bool × Nat × Journal
  | [] => (true, room, journal)
  | part :: parts =>
    if part.length ≤ room then appendWithin (room - part.length) (journal.append part) parts
    else (false, room, journal)

/-- Append parts to a journal as long as the medium works; the result says whether all went in, and how
many more parts, and bytes of one after these, the medium takes. -/
def appendUntil (parts rest : Nat) (journal : Journal) :
    List (List UInt8) → Bool × Nat × Nat × Journal
  | [] => (true, parts, rest, journal)
  | part :: more =>
    match parts with
    | 0 => (false, 0, 0, journal.append (part.take rest))
    | parts + 1 => appendUntil parts rest (journal.append part) more

/-- Run an action. -/
def write : Store → WriteAction → Except LogError Unit × Store
  | .memory journal, a => (a.outcome, .memory (journal.append a.bytes))
  | .spill store, a =>
    let (result, store) := store.write a
    (result, .spill store)
  | .limited room journal, a =>
    match appendWithin room journal a.parts with
    | (true, room, journal) => (a.outcome, .limited room journal)
    | (false, room, journal) => (.error diskFull, .limited room journal)
  | .breaking parts rest fault journal, a =>
    match appendUntil parts rest journal a.parts with
    | (true, parts, rest, journal) => (a.outcome, .breaking parts rest fault journal)
    | (false, parts, rest, journal) => (.error (.io fault), .breaking parts rest fault journal)

/-- All bytes appended so far. -/
def content : Store → List UInt8
  | .memory journal => journal.bytes
  | .spill store => store.content
  | .limited _ journal => journal.bytes
  | .breaking _ _ _ journal => journal.bytes

/-- The number of bytes that the store reports as written. -/
def bytesWritten : Store → Nat
  | .memory journal => journal.size
  | .spill store => store.written
  | .limited _ journal => journal.size
  | .breaking _ _ _ journal => journal.size

/-- Whether a spilling store is in a file; nothing for the other media. -/
def spilled? : Store → Option Bool
  | .spill store => some store.spilled
  | _ => none

end Store

/-! ## Handles -/

/-- A file that is read. -/
structure SealedFile where
  bytes : List UInt8
  /-- The number of bytes before the place from which the file is read on. -/
  position : Nat
deriving DecidableEq, Repr

namespace SealedFile

/-- Go back to the first byte. -/
def rewind (f : SealedFile) : SealedFile := { f with position := 0 }

/-- The bytes from where the file stands, behind a buffer. -/
def source (f : SealedFile) : ByteSource := .buffered (f.bytes.drop f.position)

/-- Use the bytes from where the file stands. It is left behind what the buffer has taken from it, whether this has
been used or not. -/
def read {α : Type} (f : SealedFile) (action : ByteSource → Except LogError α × ByteSource) :
    Except LogError α × SealedFile :=
  let (result, source) := action f.source
  (result, { f with position := f.position + source.delivered + source.held?.getD 0 })

end SealedFile

/-- The bytes of a sealed store. -/
inductive SealedBytes where
  | memory (bytes : List UInt8)
  | file (file : SealedFile)
deriving DecidableEq, Repr

/-- The bytes, wherever they are. -/
def SealedBytes.content : SealedBytes → List UInt8
  | .memory bytes => bytes
  | .file f => f.bytes

/-- The source of the bytes, from the first one on: a file is read through a buffer. -/
def SealedBytes.source : SealedBytes → ByteSource
  | .memory bytes => .plain bytes
  | .file f => f.rewind.source

/-- The read side of a sealed store. -/
structure ReadHandle where
  /-- The sealed bytes, until the handle is closed. -/
  sealed? : Option SealedBytes
  /-- Whether the medium of the store is one that can have a file. -/
  spills : Bool
  /-- How often the handle has been read. -/
  reads : Nat
deriving DecidableEq, Repr

namespace ReadHandle

/-- A handle over bytes in memory. -/
def ofBytes (bytes : List UInt8) : ReadHandle := ⟨some (.memory bytes), false, 0⟩

/-- The sealed bytes, until the handle is closed. -/
def content? (h : ReadHandle) : Option (List UInt8) := h.sealed?.map SealedBytes.content

/-- The source of the sealed bytes, until the handle is closed. -/
def source? (h : ReadHandle) : Option ByteSource := h.sealed?.map SealedBytes.source

/-- Use the sealed bytes, from the first one on. A closed handle cannot be read. -/
def read {α : Type} (h : ReadHandle) (action : ByteSource → Except LogError α × ByteSource) :
    Except LogError α × ReadHandle :=
  let h := { h with reads := h.reads + 1 }
  match h.sealed? with
  | none => (.error .storeClosed, h)
  | some (.memory bytes) => ((action (.plain bytes)).1, h)
  | some (.file file) =>
    let (result, file) := file.rewind.read action
    (result, { h with sealed? := some (.file file) })

/-- Let the sealed bytes go. -/
def close (h : ReadHandle) : ReadHandle := { h with sealed? := none }

/-- Whether the handle has been closed. -/
def isClosed (h : ReadHandle) : Bool := h.sealed?.isNone

/-- Whether the sealed bytes are in a file: no longer when the handle is closed, and nothing for
media without files. -/
def onDisk? (h : ReadHandle) : Option Bool :=
  if h.spills then
    match h.sealed? with
    | some (.file _) => some true
    | _ => some false
  else none

/-- A handle over bytes has these bytes. -/
@[simp] theorem content?_ofBytes (bytes : List UInt8) : (ofBytes bytes).content? = some bytes := rfl

/-- A closed handle has no bytes. -/
@[simp] theorem content?_close (h : ReadHandle) : h.close.content? = none := rfl

/-- A handle is closed when it has no bytes any more. -/
theorem isClosed_eq (h : ReadHandle) : h.isClosed = h.content?.isNone := by
  rw [isClosed, content?, Option.isNone_map]

/-- **An open handle is read from the first byte**, wherever an earlier reading left it, and a closed handle cannot
be read. -/
theorem read_fst {α : Type} (h : ReadHandle) (action : ByteSource → Except LogError α × ByteSource) :
    (h.read action).1 = match h.source? with
      | none => .error .storeClosed
      | some source => (action source).1 := by
  obtain ⟨_ | ⟨bytes | file⟩, spills, reads⟩ := h <;> rfl

/-- Reading changes no bytes. -/
@[simp] theorem content?_read {α : Type} (h : ReadHandle)
    (action : ByteSource → Except LogError α × ByteSource) : (h.read action).2.content? = h.content? := by
  obtain ⟨_ | ⟨bytes | file⟩, spills, reads⟩ := h <;> rfl

/-- Reading does not change what the next reading is given. -/
@[simp] theorem source?_read {α : Type} (h : ReadHandle)
    (action : ByteSource → Except LogError α × ByteSource) : (h.read action).2.source? = h.source? := by
  obtain ⟨_ | ⟨bytes | file⟩, spills, reads⟩ := h <;> rfl

/-- What is read are the bytes, in memory or behind the buffer of a file. -/
theorem source?_of_content {h : ReadHandle} {bytes : List UInt8} (hc : h.content? = some bytes) :
    h.source? = some (.plain bytes) ∨ h.source? = some (.buffered bytes) := by
  obtain ⟨_ | ⟨bytes' | file⟩, spills, reads⟩ := h
  · cases hc
  · obtain rfl := Option.some.inj hc
    exact .inl rfl
  · obtain rfl := Option.some.inj hc
    exact .inr rfl

/-- Each reading counts, whatever becomes of it. -/
@[simp] theorem reads_read {α : Type} (h : ReadHandle)
    (action : ByteSource → Except LogError α × ByteSource) : (h.read action).2.reads = h.reads + 1 := by
  obtain ⟨_ | ⟨bytes | file⟩, spills, reads⟩ := h <;> rfl

end ReadHandle

/-- Seal a store: nothing more is written, and what was written can be read. A file gets what its buffer
still holds back. -/
def Store.seal : Store → ReadHandle
  | .spill store =>
    match store.medium with
    | .memory journal => ⟨some (.memory journal.bytes), true, 0⟩
    | .file writer => ⟨some (.file ⟨writer.flush.file.bytes, 0⟩), true, 0⟩
  | store => .ofBytes store.content

/-- A sealed store has the bytes that were appended. -/
@[simp] theorem Store.content?_seal (s : Store) : s.seal.content? = some s.content := by
  cases s with
  | memory | limited | breaking => rfl
  | spill store =>
    obtain ⟨threshold, fault?, medium, written⟩ := store
    cases medium with
    | memory journal => rfl
    | file writer =>
      simp [Store.seal, ReadHandle.content?, SealedBytes.content, content, SpillStore.content,
        SpillMedium.content, FileWriter.content, FileWriter.flush]

/-- Only what has gone to a file is read through a buffer. -/
theorem Store.source?_seal (s : Store) :
    s.seal.source? = some (if s.spilled? = some true then .buffered s.content else .plain s.content) := by
  cases s with
  | memory | limited | breaking => rfl
  | spill store =>
    obtain ⟨threshold, fault?, medium, written⟩ := store
    cases medium with
    | memory journal => rfl
    | file writer =>
      simp [Store.seal, ReadHandle.source?, SealedBytes.source, SealedFile.rewind, SealedFile.source, spilled?,
        SpillStore.spilled, SpillMedium.inFile, content, SpillStore.content, SpillMedium.content,
        FileWriter.content, FileWriter.flush]

end ResolutionLog
