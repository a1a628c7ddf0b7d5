import Mathlib.Data.List.Forall2
import ResolutionLog.Proofs.Frames

/-! # Streams of records

The frames of some records, one after the other, are a *stream* (`Record.stream`). Each of them holds its
record (`Record.holds_frame`), so a stream is a row of frames that hold its records
(`Record.exists_frames_of_stream`). Nothing is asked of the texts in the records: a body short enough for a
frame holds no text whose length needs more than 64 bits (`Record.fits_of_length_encodeBody`).

What a reader gives is recorded as a relation, `RecordReader.Reads`, so that it can be spoken of for any
source. At the front of a row of frames a reader gives their records and then stands right behind them
(`RecordReader.reads_frames`), and whatever it gives stood there in a row of frames
(`RecordReader.Reads.exists_frames`). From a stream it gives nothing but a beginning of the records in it
(`RecordReader.Reads.isPrefix_of_stream`); it stops early at a record with a selector that could not be
made from outside, since such a record is not read back (`Record.named_of_decodeBody`). -/

namespace ResolutionLog

/-! ## Texts that fit -/

/-- A text is no longer than its encoding. -/
theorem Wire.utf8ByteSize_le_length_putText (s : String) :
    s.utf8ByteSize ≤ (Wire.putText s).length := by
  rw [Wire.putText, List.length_append, Wire.length_textBytes]
  exact Nat.le_add_left _ _

/-- A text that is there is not longer than what is put for it. -/
theorem Wire.utf8ByteSize_le_length_putOption {o : Option String} {s : String} (h : s ∈ o) :
    s.utf8ByteSize ≤ (Wire.putOption o).length := by
  obtain rfl := Option.mem_def.1 h
  exact Nat.le_succ_of_le (Wire.utf8ByteSize_le_length_putText s)

/-- No part of a component is longer than what is put for it. -/
theorem ComponentId.utf8ByteSize_le_length_put {id : ComponentId} {part : String}
    (h : part ∈ id.parts) : part.utf8ByteSize ≤ id.put.length := by
  have hs := Wire.utf8ByteSize_le_length_putText part
  cases id with
  | module id =>
    simp only [parts, ModuleId.parts, List.mem_cons, List.not_mem_nil, or_false] at h
    rcases h with rfl | rfl | rfl <;> simp only [put, List.length_append] <;> omega
  | project id =>
    simp only [parts, ProjectId.parts, List.mem_cons, List.not_mem_nil, or_false] at h
    rcases h with rfl | rfl <;> simp only [put, List.length_append] <;> omega

/-- A key fits when what is put for it is not too long. -/
theorem NodeKey.fits_of_length_put {key : NodeKey} (h : key.put.length < UInt64.size) :
    key.Fits := by
  rw [put, List.length_append] at h
  refine ⟨fun part hp => ?_, ?_⟩
  · have hl := ComponentId.utf8ByteSize_le_length_put hp
    exact Nat.lt_of_le_of_lt (Nat.le_trans hl (Nat.le_add_right _ _)) h
  · have hl := Wire.utf8ByteSize_le_length_putText key.configuration
    exact Nat.lt_of_le_of_lt (Nat.le_trans hl (Nat.le_add_left _ _)) h

/-- No part of a selector is longer than what is put for it. -/
theorem Selector.utf8ByteSize_le_length_put {s : Selector} {part : Option String} {text : String}
    (hp : part ∈ s.parts) (ht : text ∈ part) : text.utf8ByteSize ≤ s.put.length := by
  have ho := Wire.utf8ByteSize_le_length_putOption ht
  have hs := Wire.utf8ByteSize_le_length_putText text
  cases s with
  | build path =>
    simp only [parts, List.mem_singleton] at hp
    subst hp
    obtain rfl := Option.some.inj ht
    exact Nat.le_succ_of_le hs
  | module group name version =>
    simp only [parts, List.mem_cons, List.not_mem_nil, or_false] at hp
    rcases hp with rfl | rfl | rfl <;> obtain rfl := Option.some.inj ht <;>
      simp only [put, putParts, List.length_cons, List.length_append] <;> omega
  | library path name variant =>
    simp only [parts, List.mem_cons, List.not_mem_nil, or_false] at hp
    simp only [put, putParts, List.length_cons, List.length_append]
    rcases hp with rfl | rfl | rfl
    · obtain rfl := Option.some.inj ht
      omega
    · omega
    · omega

/-- **All texts fit** in a record whose body is short enough for a frame. -/
theorem Record.fits_of_length_encodeBody {r : Record} (h : r.encodeBody.length ≤ frameLimit) :
    r.Fits := by
  have hl : r.encodeBody.length < UInt64.size := Nat.lt_of_le_of_lt h (by decide)
  cases r with
  | newNode key | root key | firstLevel key => exact NodeKey.fits_of_length_put hl
  | parentChild parent child artifacts =>
    simp only [encodeBody, List.length_append] at hl
    exact ⟨NodeKey.fits_of_length_put (by omega), NodeKey.fits_of_length_put (by omega)⟩
  | unresolved parent requested reason =>
    simp only [encodeBody, List.length_append] at hl
    refine ⟨NodeKey.fits_of_length_put (by omega), fun part hp text ht => ?_, ?_⟩
    · have hs := Selector.utf8ByteSize_le_length_put hp ht
      exact Nat.lt_of_le_of_lt hs (by omega)
    · have hs := Wire.utf8ByteSize_le_length_putText reason
      exact Nat.lt_of_le_of_lt hs (by omega)

/-! ## Names are checked -/

namespace Selector

/-- **How a selector is read**: after its tag come its parts, each in front of the next one, and the selector with
these parts is named. -/
inductive TakenFrom : List UInt8 → Selector → List UInt8 → Prop where
  | build {bytes rest : List UInt8} {path : String} (path_taken : Wire.takeText bytes = .ok (path, rest))
    (named : (build path).Named) : TakenFrom (1 :: bytes) (build path) rest
  | module {bytes names versions rest : List UInt8} {group name version : String}
    (group_taken : Wire.takeText bytes = .ok (group, names))
    (name_taken : Wire.takeText names = .ok (name, versions))
    (version_taken : Wire.takeText versions = .ok (version, rest))
    (named : (module group name ⟨version⟩).Named) : TakenFrom (2 :: bytes) (module group name ⟨version⟩) rest
  | library {bytes names variants rest : List UInt8} {path : String} {name variant : Option String}
    (path_taken : Wire.takeText bytes = .ok (path, names))
    (name_taken : Wire.takeOption names = .ok (name, variants))
    (variant_taken : Wire.takeOption variants = .ok (variant, rest))
    (named : (library path name variant).Named) : TakenFrom (3 :: bytes) (library path name variant) rest

/-- A part of a selector is taken as it is taken by itself. -/
theorem takePart_eq_ok_iff {α : Type} {read : List UInt8 → Except WireFault (α × List UInt8)} {bytes : List UInt8}
    {p : α × List UInt8} : takePart read bytes = .ok p ↔ read bytes = .ok p := mapError_eq_ok_iff

/-- What is taken has been read in this way. -/
theorem takenFrom_of_take {bytes rest : List UInt8} {s : Selector} (h : take bytes = .ok (s, rest)) :
    TakenFrom bytes s rest := by
  unfold take at h
  split at h
  · cases h
  · simp only [bind_eq_ok_iff, takePart_eq_ok_iff, pure, Except.pure, Except.ok.injEq, Prod.mk.injEq] at h
    obtain ⟨⟨path, _⟩, hpath, _, hs, rfl, rfl⟩ := h
    obtain ⟨rfl, hn⟩ := checkedBuild_eq_ok_iff.1 hs
    exact .build hpath hn
  · simp only [bind_eq_ok_iff, takePart_eq_ok_iff, pure, Except.pure, Except.ok.injEq, Prod.mk.injEq] at h
    obtain ⟨⟨group, _⟩, hgroup, ⟨name, _⟩, hname, ⟨version, _⟩, hversion, _, hs, rfl, rfl⟩ := h
    obtain ⟨rfl, hn⟩ := checkedModule_eq_ok_iff.1 hs
    exact .module hgroup hname hversion hn
  · simp only [bind_eq_ok_iff, takePart_eq_ok_iff, pure, Except.pure, Except.ok.injEq, Prod.mk.injEq] at h
    obtain ⟨⟨path, _⟩, hpath, ⟨name, _⟩, hname, ⟨variant, _⟩, hvariant, _, hs, rfl, rfl⟩ := h
    obtain ⟨rfl, hn⟩ := checkedLibrary_eq_ok_iff.1 hs
    exact .library hpath hname hvariant hn
  · cases h

/-- **A selector that is read is named**, whatever the bytes are, since its parts are checked. -/
theorem named_of_take {bytes rest : List UInt8} {s : Selector} (h : take bytes = .ok (s, rest)) : s.Named := by
  cases takenFrom_of_take h with
  | build _ named | module _ _ _ named | library _ _ _ named => exact named

end Selector

/-- **A record that is read is named**, whatever its body is. -/
theorem Record.named_of_decodeBody {kind : RecordKind} {body : List UInt8} {record : Record}
    (h : decodeBody kind body = .ok record) : record.Named := by
  have hfields := decodeBody_eq_ok_iff.1 h
  cases kind <;> simp only [takeFields, bind_eq_ok_iff, pure, Except.pure, Except.ok.injEq,
    Prod.mk.injEq] at hfields
  case newNode | root | firstLevel =>
    obtain ⟨_, -, rfl, -⟩ := hfields
    trivial
  case parentChild =>
    obtain ⟨_, -, _, -, _, -, rfl, -⟩ := hfields
    trivial
  case unresolved =>
    obtain ⟨_, -, ⟨_, _⟩, hs, _, -, rfl, -⟩ := hfields
    exact Selector.named_of_take hs

/-- Only named selectors can be read back. -/
theorem Selector.named_of_take_put {s t : Selector} {rest rest' : List UInt8} (hf : s.Fits)
    (h : take (s.put ++ rest) = .ok (t, rest')) : s.Named := by
  have htaken := takenFrom_of_take h
  -- the parts that are taken are those that were put, one after the other
  cases s with
  | build path =>
    have hp : Wire.Fits path := hf (some path) (by simp [parts]) path rfl
    rw [put, putParts, List.cons_append] at htaken
    cases htaken with
    | build path_taken named =>
      rw [Wire.takeText_putText_append hp] at path_taken
      cases path_taken
      exact named
  | module group name version =>
    have hg : Wire.Fits group := hf (some group) (by simp [parts]) group rfl
    have hm : Wire.Fits name := hf (some name) (by simp [parts]) name rfl
    have hv : Wire.Fits version.text := hf (some version.text) (by simp [parts]) version.text rfl
    rw [put, putParts, List.cons_append, List.append_assoc, List.append_assoc] at htaken
    cases htaken with
    | module group_taken name_taken version_taken named =>
      rw [Wire.takeText_putText_append hg] at group_taken
      cases group_taken
      rw [Wire.takeText_putText_append hm] at name_taken
      cases name_taken
      rw [Wire.takeText_putText_append hv] at version_taken
      cases version_taken
      exact named
  | library path name variant =>
    have hp : Wire.Fits path := hf (some path) (by simp [parts]) path rfl
    have hm : ∀ t ∈ name, Wire.Fits t := hf name (by simp [parts])
    have hv : ∀ t ∈ variant, Wire.Fits t := hf variant (by simp [parts])
    rw [put, putParts, List.cons_append, List.append_assoc, List.append_assoc] at htaken
    cases htaken with
    | library path_taken name_taken variant_taken named =>
      rw [Wire.takeText_putText_append hp] at path_taken
      cases path_taken
      rw [Wire.takeOption_putOption_append hm] at name_taken
      cases name_taken
      rw [Wire.takeOption_putOption_append hv] at variant_taken
      cases variant_taken
      exact named

/-- Only named records can be read back. -/
theorem Record.named_of_decodeBody_encodeBody {record result : Record} (hf : record.Fits)
    (h : decodeBody record.kind record.encodeBody = .ok result) : record.Named := by
  cases record with
  | newNode | root | firstLevel | parentChild => trivial
  | unresolved parent requested reason =>
    have hp := @takeField_of_ok _ .unresolved _ _ _
      (NodeKey.take_put_append hf.1 (requested.put ++ Wire.putText reason))
    simp only [decodeBody, kind, takeFields, encodeBody, hp, bind_eq_ok_iff, Except.ok.injEq] at h
    obtain ⟨_, ⟨_, rfl, ⟨selector, rest⟩, hs, -⟩, -⟩ := h
    exact Selector.named_of_take_put hf.2.1 hs

/-! ## Streams -/

namespace Record

/-- The frames of some records in a row, unless one of the records has none. -/
def stream : List Record → Except LogError (List UInt8)
  | [] => .ok []
  | record :: records => do
    let frame ← record.frame
    let rest ← stream records
    return frame.bytes ++ rest

/-- No records have no bytes. -/
@[simp] theorem stream_nil : stream [] = .ok [] := rfl

/-- A stream that starts with a record starts with its frame. -/
theorem stream_cons_eq_ok_iff {record : Record} {records : List Record} {bytes : List UInt8} :
    stream (record :: records) = .ok bytes ↔
      ∃ frame rest, record.frame = .ok frame ∧ stream records = .ok rest ∧
        bytes = frame.bytes ++ rest := by
  simp only [stream, bind_eq_ok_iff, pure, Except.pure, Except.ok.injEq]
  constructor
  · rintro ⟨frame, hf, rest, hr, rfl⟩
    exact ⟨frame, rest, hf, hr, rfl⟩
  · rintro ⟨frame, rest, hf, hr, rfl⟩
    exact ⟨frame, hf, rest, hr, rfl⟩

/-- A record that is written last comes last in the stream. -/
theorem stream_concat {records : List Record} {record : Record} {bytes : List UInt8} {frame : Frame}
    (hs : stream records = .ok bytes) (hf : record.frame = .ok frame) :
    stream (records ++ [record]) = .ok (bytes ++ frame.bytes) := by
  induction records generalizing bytes with
  | nil =>
    obtain rfl := Except.ok.inj hs
    exact stream_cons_eq_ok_iff.2 ⟨frame, [], hf, rfl, (List.append_nil _).symm⟩
  | cons head tail ih =>
    obtain ⟨first, rest, hh, ht, rfl⟩ := stream_cons_eq_ok_iff.1 hs
    rw [List.append_assoc]
    exact stream_cons_eq_ok_iff.2 ⟨first, _, hh, ih ht, rfl⟩

/-- **The frame of a record holds it**, if it is named. -/
theorem holds_frame {record : Record} {frame : Frame} (hn : record.Named)
    (hf : record.frame = .ok frame) : frame.Holds record := by
  obtain ⟨hl, rfl⟩ := frame_eq_ok_iff.1 hf
  exact .intro hl (decodeBody_encodeBody hn (fits_of_length_encodeBody hl))

/-- A stream of named records is a row of frames that hold them. -/
theorem exists_frames_of_stream {records : List Record} {bytes : List UInt8}
    (hn : ∀ record ∈ records, record.Named) (hs : stream records = .ok bytes) :
    ∃ frames, List.Forall₂ Frame.Holds frames records ∧ Frame.stream frames = bytes := by
  induction records generalizing bytes with
  | nil =>
    obtain rfl := Except.ok.inj hs
    exact ⟨[], .nil, rfl⟩
  | cons record records ih =>
    obtain ⟨frame, tail, hf, ht, rfl⟩ := stream_cons_eq_ok_iff.1 hs
    rw [List.forall_mem_cons] at hn
    obtain ⟨frames, hframes, rfl⟩ := ih hn.2 ht
    exact ⟨frame :: frames, .cons (holds_frame hn.1 hf) hframes, rfl⟩

end Record

/-! ## Reading -/

namespace RecordReader

/-- A reader gives some records one after the other and then stands somewhere else. -/
inductive Reads : RecordReader → List Record → RecordReader → Prop where
  | nil (r : RecordReader) : Reads r [] r
  | cons {r s t : RecordReader} {record : Record} {records : List Record}
      (head : next r = .ok (some record) s) (tail : Reads s records t) : Reads r (record :: records) t

/-- Whoever reads records in two parts stands somewhere between them. -/
theorem Reads.of_append {r t : RecordReader} {records others : List Record}
    (h : r.Reads (records ++ others) t) : ∃ s, r.Reads records s ∧ s.Reads others t := by
  induction records generalizing r with
  | nil => exact ⟨r, .nil r, h⟩
  | cons record records ih =>
    cases h with
    | cons head tail =>
      obtain ⟨s, hreads, hothers⟩ := ih tail
      exact ⟨s, .cons head hreads, hothers⟩

/-- What is read is named. -/
theorem Reads.named {r s : RecordReader} {records : List Record} (h : r.Reads records s) :
    ∀ record ∈ records, record.Named := by
  induction h with
  | nil r => exact fun _ hm => nomatch hm
  | @cons r _ _ record records head tail ih =>
    rw [List.forall_mem_cons]
    refine ⟨?_, ih⟩
    obtain ⟨source, ⟨_, _, _, hdecode, hn⟩ | hn | ⟨_, hn⟩⟩ := next_cases r <;> rw [head] at hn <;>
      cases hn
    exact Record.named_of_decodeBody hdecode

/-- **Frames in a row are read**: their records come in order, and the reader then stands behind them. -/
theorem reads_frames {frames : List Frame} {records : List Record} {rest : List UInt8}
    {r : RecordReader} (h : List.Forall₂ Frame.Holds frames records) (hr : r.Plain)
    (hd : r.source.data = Frame.stream frames ++ rest) :
    ∃ s, r.Reads records s ∧ s.Plain ∧ s.source.data = rest ∧
      s.source.delivered = r.source.delivered + (Frame.stream frames).length ∧
      s.position = r.position.after frames records := by
  induction h generalizing r with
  | nil => exact ⟨r, .nil r, hr, hd, rfl, by simp [Position.after, position]⟩
  | @cons frame record frames records head tail ih =>
    rw [Frame.stream_cons, List.append_assoc] at hd
    obtain ⟨s, hnext, hs, hdata, hdelivered, hposition⟩ := next_of_holds head hr hd
    obtain ⟨t, hreads, ht, hrest, hall, hend⟩ := ih hs hdata
    refine ⟨t, .cons hnext hreads, ht, hrest, ?_, ?_⟩
    · rw [hall, hdelivered, Frame.stream_cons, List.length_append, Nat.add_assoc]
    · rw [hend, hposition, Position.after_after]
      rfl

/-- **Streams are read back**: the records come in order, and the reader then stands behind them with
their number added to its count and the length of the stream to its offset. -/
theorem reads_stream {records : List Record} {bytes rest : List UInt8} {r : RecordReader}
    (hn : ∀ record ∈ records, record.Named) (hs : Record.stream records = .ok bytes) (hr : r.Plain)
    (hd : r.source.data = bytes ++ rest) :
    ∃ s, r.Reads records s ∧ s.Plain ∧ s.source.data = rest ∧
      s.records = r.records + records.length ∧ s.offset = r.offset + bytes.length := by
  obtain ⟨frames, hframes, rfl⟩ := Record.exists_frames_of_stream hn hs
  obtain ⟨s, hreads, hp, hdata, -, hposition⟩ := reads_frames hframes hr hd
  exact ⟨s, hreads, hp, hdata, congrArg Position.records hposition,
    congrArg Position.offset hposition⟩

/-- **What is read stood in frames**, in a row at the front of the data. -/
theorem Reads.exists_frames {r s : RecordReader} {records : List Record} (h : r.Reads records s)
    (hr : r.Plain) : ∃ frames rest, List.Forall₂ Frame.Holds frames records ∧
      r.source.data = Frame.stream frames ++ rest := by
  induction h with
  | nil r => exact ⟨[], r.source.data, .nil, rfl⟩
  | cons head tail ih =>
    obtain ⟨frame, rest, hf, hd⟩ := exists_frame_of_next hr head
    obtain ⟨t, hnext, ht, hdata, -⟩ := next_of_holds hf hr hd
    rw [head] at hnext
    cases hnext
    obtain ⟨frames, rest', hframes, hd'⟩ := ih ht
    refine ⟨frame :: frames, rest', .cons hf hframes, ?_⟩
    rw [hd, ← hdata, hd', Frame.stream_cons, List.append_assoc]

/-- **Nothing else is read from a stream**: whatever a reader gives is a beginning of the records in it,
even when some of them cannot be read. -/
theorem Reads.isPrefix_of_stream {records seen : List Record} {bytes : List UInt8}
    {r s : RecordReader} (h : r.Reads seen s) (hs : Record.stream records = .ok bytes) (hr : r.Plain)
    (hd : r.source.data = bytes) : seen <+: records := by
  induction h generalizing records bytes with
  | nil r => exact List.nil_prefix
  | @cons r t s record seen head tail ih =>
    cases records with
    | nil =>
      -- at the end of the data no record is read
      obtain rfl := Except.ok.inj hs
      rw [next_of_no_data hr hd] at head
      cases head
    | cons written records =>
      obtain ⟨frame, rest, hf, hrest, rfl⟩ := Record.stream_cons_eq_ok_iff.1 hs
      obtain ⟨hl, rfl⟩ := Record.frame_eq_ok_iff.1 hf
      have hfits := Record.fits_of_length_encodeBody hl
      have hn : written.Named := by
        -- an unnamed record would have stopped the reader
        rw [next_frame_eq hr hl hd] at head
        cases hb : Record.decodeBody written.kind written.encodeBody with
        | ok result => exact Record.named_of_decodeBody_encodeBody hfits hb
        | error e =>
          rw [hb] at head
          cases head
      obtain ⟨u, hnext, hp, hdata, -⟩ := next_of_holds (Record.holds_frame hn hf) hr hd
      rw [head] at hnext
      cases hnext
      exact (List.prefix_cons_inj _).2 (ih hrest hp hdata)

end RecordReader

/-! ## A sample log -/

namespace Sample

/-- The root of the sample. -/
def app : NodeKey := ⟨.module ⟨"org", "app", "1.0"⟩, "default"⟩

/-- One configuration of the library that the root asks for. -/
def compile : NodeKey := ⟨.module ⟨"org", "lib", "1.0"⟩, "compile"⟩

/-- Another configuration of the same library. -/
def runtime : NodeKey := ⟨.module ⟨"org", "lib", "1.0"⟩, "runtime"⟩

/-- The request for both configurations. -/
def request : Selector := .module "org" "lib" ⟨"1.+"⟩

/-- The records before the root, with an edge that comes twice and a request that fails. -/
def before : List Record :=
  [.newNode app, .newNode compile, .newNode runtime, .parentChild app compile ⟨0⟩,
    .parentChild app runtime ⟨0⟩, .parentChild app compile ⟨0⟩,
    .unresolved app (.exact app.component) "no match", .firstLevel compile, .firstLevel runtime]

/-- All records; the last one comes too late to be read. -/
def log : List Record := before ++ .root app :: [.newNode runtime]

/-- All records of the sample log are named. -/
theorem named : ∀ record ∈ log, record.Named := by decide +kernel

end Sample

end ResolutionLog
