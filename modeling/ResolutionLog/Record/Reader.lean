import ResolutionLog.ByteSource
import ResolutionLog.Record.Frame

/-! # Reading records

A reader takes one frame after the other from a source of bytes and remembers where the next frame
starts, how many records it has read and of which kind the last one was. A frame that is broken or
cut short is an error that names the start of the frame; after an error the position is still that
of the last good record. Main statements: `next_frame`, which reads back what `Record.frame` writes,
and `next_of_no_data` for the end of the stream. -/

namespace ResolutionLog

/-- A source of frames with the position of the next frame. -/
structure RecordReader where
  source : ByteSource
  /-- The number of bytes in the frames read so far. -/
  offset : Nat
  /-- The number of records read so far. -/
  records : Nat
  /-- The kind of the last record. -/
  last : Option RecordKind
deriving DecidableEq, Repr

namespace RecordReader

open ByteSource

/-- A reader at the front of a source. -/
def start (source : ByteSource) : RecordReader := ⟨source, 0, 0, none⟩

/-- A step of reading: its result or error, with the reader after it. -/
abbrev Step (α : Type) := EStateM LogError RecordReader α

/-- The tag of the next frame, or none at the end of the data. A request that is interrupted is made again. -/
def takeTag (r : RecordReader) : EStateM.Result LogError RecordReader (Option UInt8) :=
  match _h : r.source.read 1 with
  | (.ok content, s) => .ok content.head? { r with source := s }
  | (.error fault, s) =>
    if fault.kind = .interrupted then takeTag { r with source := s }
    else .error (.io fault) { r with source := s }
termination_by r.source.schedule.length
decreasing_by exact schedule_of_interrupted _h ‹_›

/-- What a failure within a frame is taken for: the end of the data, if it says so. -/
def partFault (kind : RecordKind) (offset : Nat) (fault : IoFault) : LogError :=
  if fault.kind = .unexpectedEnd then .truncatedRecord kind offset else .io fault

/-- The next bytes of a frame. -/
def takePart (kind : RecordKind) (count : Nat) : Step (List UInt8) := fun r =>
  match r.source.readExact count with
  | (.ok content, s) => .ok content { r with source := s }
  | (.error fault, s) => .error (partFault kind r.offset fault) { r with source := s }

/-- The rest of a frame after its tag: the body. -/
def takeBody (kind : RecordKind) : Step (List UInt8) := fun r =>
  match takePart kind 4 r with
  | .error e r => .error e r
  | .ok content r =>
    let length := numberOfBytes content
    if frameLimit < length then .error (.oversizedRecord kind r.offset length) r
    else takePart kind length r

/-- The reader behind a record with a body of the given length. -/
def advance (kind : RecordKind) (length : Nat) (r : RecordReader) : RecordReader :=
  { r with offset := r.offset + headerLength + length, records := r.records + 1, last := some kind }

/-- The next record, or none at the end of the data. -/
def next : Step (Option Record) := fun r =>
  match takeTag r with
  | .error e r => .error e r
  | .ok none r => .ok none r
  | .ok (some tag) r =>
    match RecordKind.ofTag? tag with
    | none => .error (.unknownRecord tag r.offset r.records r.last) r
    | some kind =>
      match takeBody kind r with
      | .error e r => .error e r
      | .ok body r =>
        match Record.decodeBody kind body with
        | .error e => .error e r
        | .ok record => .ok (some record) (advance kind body.length r)

/-! ## Progress -/

/-- The number of bytes that the source still holds. -/
def remaining (r : RecordReader) : Nat := r.source.data.length

/-- A tag uses up a byte of the source. -/
theorem remaining_of_takeTag {r r' : RecordReader} {tag : Option UInt8}
    (h : takeTag r = .ok tag r') : r'.remaining + tag.toList.length ≤ r.remaining := by
  fun_induction takeTag r with
  | case1 r content s hread =>
    have hl := (length_data_read r.source 1).2 content (by rw [hread])
    rw [hread] at hl
    cases h
    cases content <;> simp [remaining] at hl ⊢ <;> omega
  | case2 r fault s hread hkind ih =>
    -- an interruption takes nothing
    have hl := (length_data_read r.source 1).1
    rw [hread] at hl
    exact Nat.le_trans (ih h) hl
  | case3 => cases h

/-- A part of a frame gives no bytes back. -/
theorem remaining_of_takePart {r r' : RecordReader} {kind : RecordKind} {count : Nat}
    {content : List UInt8} (h : takePart kind count r = .ok content r') :
    r'.remaining ≤ r.remaining := by
  unfold takePart at h
  have hl := length_data_readExact_le r.source count
  split at h
  · next hs =>
    rw [hs] at hl
    cases h
    exact hl
  · cases h

/-- A body gives no bytes back. -/
theorem remaining_of_takeBody {r r' : RecordReader} {kind : RecordKind} {body : List UInt8}
    (h : takeBody kind r = .ok body r') : r'.remaining ≤ r.remaining := by
  unfold takeBody at h
  split at h
  · cases h
  · next hp =>
    have h1 := remaining_of_takePart hp
    simp only at h
    split at h
    · cases h
    · exact Nat.le_trans (remaining_of_takePart h) h1

/-- Reading a record uses up bytes of the source. -/
theorem remaining_of_next {r r' : RecordReader} {record : Record}
    (h : next r = .ok (some record) r') : r'.remaining < r.remaining := by
  unfold next at h
  split at h
  · cases h
  · cases h
  · next tag s ht =>
    have h1 := remaining_of_takeTag ht
    simp only [Option.toList_some, List.length_singleton] at h1
    split at h
    · cases h
    · next kind _ =>
      split at h
      · cases h
      · next body s' hb =>
        have h2 := remaining_of_takeBody hb
        split at h
        · cases h
        · cases h
          exact Nat.lt_of_le_of_lt h2 h1

/-! ## Plain sources -/

/-- The source of a reader delivers all it is asked for. -/
def Plain (r : RecordReader) : Prop := r.source.IsPlain

/-- The reader after the delivery of `count` bytes that belong to no finished record. -/
def skip (r : RecordReader) (count : Nat) : RecordReader :=
  { r with source := r.source.advance count }

/-- A reader at the front of some bytes has a plain source. -/
theorem plain_start (data : List UInt8) : (start (.plain data)).Plain := isPlain_plain data

/-- A plain source stays plain. -/
theorem Plain.skip {r : RecordReader} (h : r.Plain) (count : Nat) : (r.skip count).Plain := h.advance count

/-- Bytes that are delivered one after the other can be delivered at once. -/
theorem skip_skip (r : RecordReader) (m n : Nat) : (r.skip m).skip n = r.skip (m + n) := by
  simp only [RecordReader.skip, ByteSource.advance, List.drop_drop, List.length_take, List.length_drop,
    mk.injEq, ByteSource.mk.injEq, and_true, true_and]
  omega

/-- The tag of a frame is the next byte of a plain source. -/
theorem takeTag_of_plain {r : RecordReader} (h : r.Plain) :
    takeTag r = .ok r.source.data.head? (r.skip 1) := by
  unfold takeTag
  split
  · next content s hread =>
    rw [read_of_plain h] at hread
    obtain ⟨hcontent, rfl⟩ := Prod.mk.inj hread
    obtain rfl := Except.ok.inj hcontent
    rw [List.head?_take, if_neg Nat.one_ne_zero]
    rfl
  · next hread =>
    rw [read_of_plain h] at hread
    cases hread

/-- A part of a frame is what comes next in a plain source. -/
theorem takePart_of_plain {r : RecordReader} (h : r.Plain) (kind : RecordKind) {count : Nat}
    (hc : count ≤ r.source.data.length) :
    takePart kind count r = .ok (r.source.data.take count) (r.skip count) := by
  rw [takePart, readExact_of_plain h hc]
  rfl

/-- A frame is cut short when a plain source has not enough of it. -/
theorem takePart_of_plain_of_lt {r : RecordReader} (h : r.Plain) (kind : RecordKind) {count : Nat}
    (hc : r.source.data.length < count) :
    ∃ s, takePart kind count r = .error (.truncatedRecord kind r.offset) s := by
  obtain ⟨t, ht⟩ := readExact_of_plain_of_lt h hc
  rw [takePart, ht]
  exact ⟨_, rfl⟩

/-- At the end of the data there is no record and nothing changes. -/
theorem next_of_no_data {r : RecordReader} (h : r.Plain) (hd : r.source.data = []) :
    next r = .ok none r := by
  have hs : r.skip 1 = r := by
    obtain ⟨⟨data, delivered, schedule, failsAt, held?⟩, offset, records, last⟩ := r
    simp only at hd
    simp [RecordReader.skip, ByteSource.advance, hd]
  simp [next, takeTag_of_plain h, hd, hs]

/-- A frame at the front of the data is taken whole, and its body decides what becomes of it. -/
theorem next_frame_eq {r : RecordReader} (h : r.Plain) {kind : RecordKind} {body rest : List UInt8}
    (hl : body.length ≤ frameLimit)
    (hd : r.source.data = (Frame.ofBody kind body).bytes ++ rest) :
    next r = match Record.decodeBody kind body with
      | .error e => .error e (r.skip (headerLength + body.length))
      | .ok record =>
        .ok (some record) (advance kind body.length (r.skip (headerLength + body.length))) := by
  have hn : numberOfBytes (lengthBytes body.length) = body.length :=
    numberOfBytes_lengthBytes (Nat.lt_of_le_of_lt hl (by decide))
  have hd1 : (r.skip 1).source.data = lengthBytes body.length ++ (body ++ rest) := by
    simp [RecordReader.skip, ByteSource.advance, hd, Frame.bytes, Frame.ofBody]
  have hd5 : (r.skip 5).source.data = body ++ rest := by
    simp [RecordReader.skip, ByteSource.advance, hd, Frame.bytes, Frame.ofBody, lengthBytes]
  have hp : takePart kind 4 (r.skip 1) = .ok (lengthBytes body.length) (r.skip 5) := by
    rw [takePart_of_plain (h.skip 1) kind (by simp [hd1, lengthBytes]), hd1, skip_skip]
    rfl
  have hq : takePart kind body.length (r.skip 5) =
      .ok body (r.skip (headerLength + body.length)) := by
    rw [takePart_of_plain (h.skip 5) kind (by simp [hd5]), hd5, skip_skip, List.take_left]
    rfl
  have ht : takeTag r = .ok (some kind.tag) (r.skip 1) := by
    rw [takeTag_of_plain h, hd]
    rfl
  simp only [next, ht, RecordKind.ofTag?_tag, takeBody, hp, hn, hq]
  rw [if_neg (by omega)]

/-- A frame at the front of the data is read as the record that its body encodes. -/
theorem next_frame {r : RecordReader} (h : r.Plain) {kind : RecordKind} {body rest : List UInt8}
    {record : Record} (hl : body.length ≤ frameLimit)
    (hb : Record.decodeBody kind body = .ok record)
    (hd : r.source.data = (Frame.ofBody kind body).bytes ++ rest) :
    next r = .ok (some record) (advance kind body.length (r.skip (headerLength + body.length))) := by
  rw [next_frame_eq h hl hd, hb]

end RecordReader

end ResolutionLog
