import ResolutionLog.Record.Reader

/-! # Frames and what is wrong with them

Any bytes a reader comes to are told apart by what stands at their front: nothing at all, a frame that
holds a record (`Frame.Holds`), or something that is wrong in exactly one way (`FrameFault`). The body
of a frame need not be one that a writer would produce; it is enough that it decodes.

Main statements: over a plain source the reader gives the record of a frame and moves behind it
(`RecordReader.next_of_holds`), and it fails exactly with the fault at the front of the data
(`RecordReader.next_eq_error_iff`). Whatever the source is, a call that gives no record leaves the position
as it was (`RecordReader.position_of_next_error`). -/

namespace ResolutionLog

/-- A sequence of two computations succeeds when the first does and the second does on its result. -/
theorem bind_eq_ok_iff {ε α β : Type} {x : Except ε α} {f : α → Except ε β} {b : β} :
    x >>= f = .ok b ↔ ∃ a, x = .ok a ∧ f a = .ok b := by
  cases x with
  | error e => simp [bind, Except.bind]
  | ok a => simp [bind, Except.bind]

/-- A computation whose errors are told in other words succeeds as it did. -/
theorem mapError_eq_ok_iff {ε ε' α : Type} {f : ε → ε'} {x : Except ε α} {a : α} :
    x.mapError f = .ok a ↔ x = .ok a := by
  cases x with
  | error e => constructor <;> intro h <;> cases h
  | ok b => constructor <;> intro h <;> cases h <;> rfl

/-- A computation succeeds when it has a result. -/
theorem isOk_iff_exists {ε α : Type} {x : Except ε α} : x.isOk = true ↔ ∃ a, x = .ok a := by
  cases x with
  | error e => simp [Except.isOk, Except.toBool]
  | ok a => simp [Except.isOk, Except.toBool]

/-! ## Frames with records -/

/-- A frame holds a record when its body is short enough for a frame and decodes to that record. -/
inductive Frame.Holds : Frame → Record → Prop where
  | intro {kind : RecordKind} {body : List UInt8} {record : Record}
      (fits : body.length ≤ frameLimit) (decoded : Record.decodeBody kind body = .ok record) :
    Holds (.ofBody kind body) record

/-- Some frames in a row. -/
def Frame.stream (frames : List Frame) : List UInt8 := frames.flatMap Frame.bytes

/-- No frames have no bytes. -/
@[simp] theorem Frame.stream_nil : stream [] = [] := rfl

/-- The bytes of frames follow one another. -/
@[simp] theorem Frame.stream_cons (frame : Frame) (frames : List Frame) :
    stream (frame :: frames) = frame.bytes ++ stream frames := rfl

/-- Frames in a row are some of them and then the others. -/
theorem Frame.stream_append (frames others : List Frame) :
    stream (frames ++ others) = stream frames ++ stream others := List.flatMap_append

/-- A body decodes when its fields use it up. -/
theorem Record.decodeBody_eq_ok_iff {kind : RecordKind} {body : List UInt8} {record : Record} :
    decodeBody kind body = .ok record ↔ takeFields body kind = .ok (record, []) := by
  rw [decodeBody, bind_eq_ok_iff]
  constructor
  · rintro ⟨⟨found, rest⟩, hfields, h⟩
    cases rest with
    | nil =>
      cases h
      exact hfields
    | cons b rest => cases h
  · intro h
    exact ⟨(record, []), h, rfl⟩

/-- A body of some kind decodes to records of that kind only. -/
theorem Record.kind_of_decodeBody {kind : RecordKind} {body : List UInt8} {record : Record}
    (h : decodeBody kind body = .ok record) : record.kind = kind := by
  have hfields := decodeBody_eq_ok_iff.1 h
  cases kind <;> simp only [takeFields, bind_eq_ok_iff, pure, Except.pure, Except.ok.injEq,
    Prod.mk.injEq] at hfields
  case newNode | root | firstLevel =>
    obtain ⟨_, -, rfl, -⟩ := hfields
    rfl
  case parentChild | unresolved =>
    obtain ⟨_, -, _, -, _, -, rfl, -⟩ := hfields
    rfl

namespace Frame.Holds

variable {frame : Frame} {record : Record} (h : frame.Holds record)

include h

/-- A frame that holds a record is the frame of its body. -/
theorem eq_ofBody : frame = .ofBody record.kind frame.body ∧ frame.body.length ≤ frameLimit ∧
    Record.decodeBody record.kind frame.body = .ok record := by
  obtain ⟨fits, decoded⟩ := h
  rw [Record.kind_of_decodeBody decoded]
  exact ⟨rfl, fits, decoded⟩

/-- A frame is as long as its header and its body. -/
theorem length_bytes : frame.bytes.length = headerLength + frame.body.length := by
  obtain ⟨fits, decoded⟩ := h
  exact Frame.length_bytes_ofBody _ _

end Frame.Holds

/-! ## Positions and faults -/

namespace RecordReader

/-- Where a reader stands: at a byte, behind some records, of which the last had some kind. -/
structure Position where
  offset : Nat
  records : Nat
  last : Option RecordKind
deriving DecidableEq, Repr

/-- The position of a reader. -/
def position (r : RecordReader) : Position := ⟨r.offset, r.records, r.last⟩

/-- A reader starts in front of everything. -/
@[simp] theorem position_start (source : ByteSource) : (start source).position = ⟨0, 0, none⟩ := rfl

/-- The position behind some frames with some records. -/
def Position.after (p : Position) (frames : List Frame) (records : List Record) : Position :=
  ⟨p.offset + (Frame.stream frames).length, p.records + records.length,
    (records.getLast?.map Record.kind).or p.last⟩

/-- Frames and more frames move a position as all of them do. -/
theorem Position.after_after (p : Position) (frames frames' : List Frame)
    (records records' : List Record) : (p.after frames records).after frames' records' =
      p.after (frames ++ frames') (records ++ records') := by
  simp only [after, Frame.stream_append, List.length_append, List.getLast?_append, Nat.add_assoc,
    Option.map_or, Option.or_assoc]

/-- From the front, the position behind some frames is told by these alone. -/
@[simp] theorem Position.zero_after (frames : List Frame) (records : List Record) :
    (⟨0, 0, none⟩ : Position).after frames records =
      ⟨(Frame.stream frames).length, records.length, records.getLast?.map Record.kind⟩ := by
  simp only [after, Nat.zero_add, Option.or_none]

end RecordReader

/-- **What is wrong with bytes** that start neither with a frame that holds a record nor are at their end,
with the error that a reader at some position reports for them. -/
inductive FrameFault (p : RecordReader.Position) : List UInt8 → LogError → Prop where
  /-- The first byte is no tag. -/
  | unknownTag {tag : UInt8} {rest : List UInt8} (unknown : ∀ kind : RecordKind, kind.tag ≠ tag) :
    FrameFault p (tag :: rest) (.unknownRecord tag p.offset p.records p.last)
  /-- The bytes end within the header. -/
  | cutHeader {kind : RecordKind} {rest : List UInt8}
      (short : (kind.tag :: rest).length < headerLength) :
    FrameFault p (kind.tag :: rest) (.truncatedRecord kind p.offset)
  /-- The header announces too long a body, whatever follows. -/
  | oversized {kind : RecordKind} {length rest : List UInt8} (four : length.length = 4)
      (long : frameLimit < numberOfBytes length) :
    FrameFault p (kind.tag :: (length ++ rest)) (.oversizedRecord kind p.offset (numberOfBytes length))
  /-- The bytes end within the body. -/
  | cutBody {kind : RecordKind} {length rest : List UInt8} (four : length.length = 4)
      (fits : numberOfBytes length ≤ frameLimit) (short : rest.length < numberOfBytes length) :
    FrameFault p (kind.tag :: (length ++ rest)) (.truncatedRecord kind p.offset)
  /-- The body is there and does not decode. -/
  | undecodable {kind : RecordKind} {body rest : List UInt8} {e : LogError}
      (fits : body.length ≤ frameLimit) (failed : Record.decodeBody kind body = .error e) :
    FrameFault p ((Frame.ofBody kind body).bytes ++ rest) e

/-- A header and as many bytes as it announces are a frame. -/
theorem Frame.bytes_ofBody_take {kind : RecordKind} {length rest : List UInt8}
    (four : length.length = 4) (enough : numberOfBytes length ≤ rest.length) :
    kind.tag :: (length ++ rest) =
      (ofBody kind (rest.take (numberOfBytes length))).bytes ++ rest.drop (numberOfBytes length) := by
  have hlength : (rest.take (numberOfBytes length)).length = numberOfBytes length :=
    List.length_take_of_le enough
  rw [bytes, ofBody, hlength, lengthBytes_numberOfBytes four, List.append_assoc, List.take_append_drop,
    List.cons_append]

/-- **Bytes are told apart** by their front: nothing, a fault, or a frame that holds a record. -/
theorem frame_cases (p : RecordReader.Position) (bytes : List UInt8) :
    bytes = [] ∨ (∃ e, FrameFault p bytes e) ∨
      ∃ frame record rest, Frame.Holds frame record ∧ bytes = frame.bytes ++ rest := by
  cases bytes with
  | nil => exact .inl rfl
  | cons tag rest =>
    right
    by_cases hknown : ∃ kind : RecordKind, kind.tag = tag
    · obtain ⟨kind, rfl⟩ := hknown
      by_cases hheader : (kind.tag :: rest).length < headerLength
      · exact .inl ⟨_, .cutHeader hheader⟩
      · -- the next four bytes announce the length of the body
        have four : (rest.take 4).length = 4 := by
          simp only [List.length_cons, headerLength] at hheader
          exact List.length_take_of_le (by omega)
        rw [← List.take_append_drop 4 rest]
        rcases Nat.lt_or_ge frameLimit (numberOfBytes (rest.take 4)) with long | fits
        · exact .inl ⟨_, .oversized four long⟩
        · rcases Nat.lt_or_ge (rest.drop 4).length (numberOfBytes (rest.take 4)) with short | enough
          · exact .inl ⟨_, .cutBody four fits short⟩
          · rw [Frame.bytes_ofBody_take four enough]
            have hbody : ((rest.drop 4).take (numberOfBytes (rest.take 4))).length ≤ frameLimit := by
              rw [List.length_take_of_le enough]
              exact fits
            cases hdecode : Record.decodeBody kind
                ((rest.drop 4).take (numberOfBytes (rest.take 4))) with
            | error e => exact .inl ⟨e, .undecodable hbody hdecode⟩
            | ok record => exact .inr ⟨_, record, _, .intro hbody hdecode, rfl⟩
    · exact .inl ⟨_, .unknownTag (not_exists.1 hknown)⟩

/-- A frame that is cut anywhere behind its first byte is truncated. -/
theorem Frame.Holds.fault_take {frame : Frame} {record : Record} (h : frame.Holds record)
    (p : RecordReader.Position) {count : Nat} (hpos : 0 < count) (hlt : count < frame.bytes.length) :
    FrameFault p (frame.bytes.take count) (.truncatedRecord record.kind p.offset) := by
  obtain ⟨heq, fits, -⟩ := h.eq_ofBody
  have hlength := h.length_bytes
  have hnumber : numberOfBytes (lengthBytes frame.body.length) = frame.body.length :=
    numberOfBytes_lengthBytes (Nat.lt_of_le_of_lt fits (by decide))
  obtain ⟨count, rfl⟩ := Nat.exists_eq_succ_of_ne_zero (Nat.ne_of_gt hpos)
  have hbytes : frame.bytes.take (count + 1) =
      record.kind.tag :: (lengthBytes frame.body.length ++ frame.body).take count := by
    rw [heq]
    rfl
  rw [hbytes]
  by_cases hheader : count < 4
  · refine .cutHeader ?_
    rw [List.length_cons, List.length_take, headerLength]
    omega
  · -- the whole header is there, and the body is not
    rw [List.take_append, List.take_of_length_le (by simp [lengthBytes]; omega)]
    refine .cutBody rfl (by omega) ?_
    rw [List.length_take, hnumber]
    simp only [lengthBytes, List.length_cons, List.length_nil, headerLength] at hlength ⊢
    omega

/-! ## One call of a reader -/

namespace RecordReader

/-! ### Any source -/

/-- Taking a tag changes nothing but the source. -/
theorem takeTag_cases (r : RecordReader) : ∃ source,
    (∃ tag, takeTag r = .ok tag { r with source }) ∨ ∃ e, takeTag r = .error e { r with source } := by
  fun_induction takeTag r with
  | case1 r content s hread => exact ⟨s, .inl ⟨_, rfl⟩⟩
  | case2 r fault s hread hkind ih => exact ih
  | case3 r fault s hread hkind => exact ⟨s, .inr ⟨_, rfl⟩⟩

/-- Taking a part of a frame changes nothing but the source. -/
theorem takePart_cases (kind : RecordKind) (count : Nat) (r : RecordReader) : ∃ source,
    (∃ content, takePart kind count r = .ok content { r with source }) ∨
      ∃ e, takePart kind count r = .error e { r with source } := by
  unfold takePart
  split
  · exact ⟨_, .inl ⟨_, rfl⟩⟩
  · exact ⟨_, .inr ⟨_, rfl⟩⟩

/-- Taking a body changes nothing but the source. -/
theorem takeBody_cases (kind : RecordKind) (r : RecordReader) : ∃ source,
    (∃ body, takeBody kind r = .ok body { r with source }) ∨
      ∃ e, takeBody kind r = .error e { r with source } := by
  unfold takeBody
  obtain ⟨source, ⟨content, h⟩ | ⟨e, h⟩⟩ := takePart_cases kind 4 r
  · rw [h]
    simp only
    split
    · exact ⟨source, .inr ⟨_, rfl⟩⟩
    · exact takePart_cases kind _ { r with source }
  · exact ⟨source, .inr ⟨e, by rw [h]⟩⟩

/-- **A call ends** in one of three ways: it gives a record of the kind that it leaves behind, or it gives
none or fails, and then it changes nothing but the source. -/
theorem next_cases (r : RecordReader) : ∃ source,
    (∃ record kind body, Record.decodeBody kind body = .ok record ∧
        next r = .ok (some record) (advance kind body.length { r with source })) ∨
      next r = .ok none { r with source } ∨ ∃ e, next r = .error e { r with source } := by
  unfold next
  obtain ⟨source, ⟨tag, h⟩ | ⟨e, h⟩⟩ := takeTag_cases r
  · rw [h]
    cases tag with
    | none => exact ⟨source, .inr (.inl rfl)⟩
    | some tag =>
      simp only
      cases RecordKind.ofTag? tag with
      | none => exact ⟨source, .inr (.inr ⟨_, rfl⟩)⟩
      | some kind =>
        simp only
        obtain ⟨source', ⟨body, hb⟩ | ⟨e, hb⟩⟩ := takeBody_cases kind { r with source }
        · rw [hb]
          simp only
          cases hd : Record.decodeBody kind body with
          | error e => exact ⟨source', .inr (.inr ⟨e, rfl⟩)⟩
          | ok record => exact ⟨source', .inl ⟨record, kind, body, hd, rfl⟩⟩
        · rw [hb]
          exact ⟨source', .inr (.inr ⟨e, rfl⟩)⟩
  · rw [h]
    exact ⟨source, .inr (.inr ⟨e, rfl⟩)⟩

/-- **A call that fails leaves the position** as it was, whatever the source is. -/
theorem position_of_next_error {r s : RecordReader} {e : LogError} (h : next r = .error e s) :
    s.position = r.position := by
  obtain ⟨source, ⟨_, _, _, _, hn⟩ | hn | ⟨_, hn⟩⟩ := next_cases r
  · rw [h] at hn
    cases hn
  · rw [h] at hn
    cases hn
  · rw [h] at hn
    cases hn
    rfl

/-! ### Plain sources -/

/-- **A frame is read** as the record that it holds, and the reader then stands behind it. -/
theorem next_of_holds {r : RecordReader} {frame : Frame} {record : Record} {rest : List UInt8}
    (h : frame.Holds record) (hr : r.Plain) (hd : r.source.data = frame.bytes ++ rest) :
    ∃ s, next r = .ok (some record) s ∧ s.Plain ∧ s.source.data = rest ∧
      s.source.delivered = r.source.delivered + frame.bytes.length ∧
      s.position = r.position.after [frame] [record] := by
  obtain ⟨heq, fits, decoded⟩ := h.eq_ofBody
  have hlength := h.length_bytes
  have hnext := next_frame hr fits decoded (heq ▸ hd)
  rw [← hlength] at hnext
  refine ⟨_, hnext, hr.skip _, ?_, ?_, ?_⟩
  · show r.source.data.drop _ = rest
    rw [hd, List.drop_left]
  · show r.source.delivered + (r.source.data.take _).length = _
    rw [hd, List.take_left]
  · simp [position, Position.after, advance, RecordReader.skip, hlength, Nat.add_assoc]

/-- Behind the tag of a frame stands the length of its body, and then the body. -/
theorem takePart_header {r : RecordReader} {tag : UInt8} {length rest : List UInt8} (hr : r.Plain)
    (four : length.length = 4) (hd : r.source.data = tag :: (length ++ rest)) (kind : RecordKind) :
    takePart kind 4 (r.skip 1) = .ok length (r.skip headerLength) ∧
      (r.skip headerLength).source.data = rest := by
  have hskip : (r.skip 1).source.data = length ++ rest := by
    simp [RecordReader.skip, ByteSource.advance, hd]
  constructor
  · have henough : 4 ≤ (r.skip 1).source.data.length := by
      rw [hskip, List.length_append]
      omega
    rw [takePart_of_plain (hr.skip 1) kind henough, hskip, ← four, List.take_left, four, skip_skip]
    rfl
  · rw [headerLength, ← skip_skip r 1 4]
    show (r.skip 1).source.data.drop 4 = rest
    rw [hskip, ← four, List.drop_left]

/-- A reader at a fault fails with its error. -/
theorem next_of_fault {r : RecordReader} {e : LogError} (hr : r.Plain)
    (h : FrameFault r.position r.source.data e) : ∃ s, next r = .error e s := by
  generalize hdata : r.source.data = bytes at h
  have htag : takeTag r = .ok bytes.head? (r.skip 1) := by rw [takeTag_of_plain hr, hdata]
  -- the tag is read in any case, and then as much as the fault lets through
  cases h with
  | @unknownTag tag rest unknown =>
    have hnone : RecordKind.ofTag? tag = none := by
      rw [Option.eq_none_iff_forall_ne_some]
      exact fun kind hk => unknown kind (RecordKind.ofTag?_eq_some_iff.1 hk)
    simp only [next, htag, List.head?_cons, hnone]
    exact ⟨_, rfl⟩
  | @cutHeader kind rest short =>
    have hrest : (r.skip 1).source.data.length < 4 := by
      rw [List.length_cons, headerLength] at short
      simp only [RecordReader.skip, ByteSource.advance, hdata, List.drop_one, List.tail_cons]
      omega
    obtain ⟨s, hs⟩ := takePart_of_plain_of_lt (hr.skip 1) kind hrest
    simp only [next, htag, List.head?_cons, RecordKind.ofTag?_tag, takeBody, hs]
    exact ⟨s, rfl⟩
  | @oversized kind length rest four long =>
    obtain ⟨hlength, -⟩ := takePart_header hr four hdata kind
    simp only [next, htag, List.head?_cons, RecordKind.ofTag?_tag, takeBody, hlength, if_pos long]
    exact ⟨_, rfl⟩
  | @cutBody kind length rest four fits short =>
    obtain ⟨hlength, hrest⟩ := takePart_header hr four hdata kind
    obtain ⟨s, hs⟩ := takePart_of_plain_of_lt (hr.skip headerLength) kind (hrest ▸ short)
    simp only [next, htag, List.head?_cons, RecordKind.ofTag?_tag, takeBody, hlength,
      if_neg (Nat.not_lt.2 fits), hs]
    exact ⟨s, rfl⟩
  | @undecodable kind body rest e fits failed =>
    rw [next_frame_eq hr fits hdata, failed]
    exact ⟨_, rfl⟩

/-- **A call fails** exactly with the fault at the front of the data. -/
theorem next_eq_error_iff {r : RecordReader} {e : LogError} (hr : r.Plain) :
    (∃ s, next r = .error e s) ↔ FrameFault r.position r.source.data e := by
  constructor
  · rintro ⟨s, hs⟩
    rcases frame_cases r.position r.source.data with hd | ⟨e', he'⟩ | ⟨frame, record, rest, hf, hd⟩
    · rw [next_of_no_data hr hd] at hs
      cases hs
    · obtain ⟨t, ht⟩ := next_of_fault hr he'
      rw [hs] at ht
      cases ht
      exact he'
    · obtain ⟨t, ht, -⟩ := next_of_holds hf hr hd
      rw [hs] at ht
      cases ht
  · exact next_of_fault hr

/-- A record that is read stood in a frame at the front of the data. -/
theorem exists_frame_of_next {r s : RecordReader} {record : Record} (hr : r.Plain)
    (h : next r = .ok (some record) s) :
    ∃ frame rest, Frame.Holds frame record ∧ r.source.data = frame.bytes ++ rest := by
  rcases frame_cases r.position r.source.data with hd | ⟨e, he⟩ | ⟨frame, other, rest, hf, hd⟩
  · rw [next_of_no_data hr hd] at h
    cases h
  · obtain ⟨t, ht⟩ := next_of_fault hr he
    rw [h] at ht
    cases ht
  · obtain ⟨t, ht, -⟩ := next_of_holds hf hr hd
    rw [h] at ht
    cases ht
    exact ⟨frame, rest, hf, hd⟩

end RecordReader

end ResolutionLog
