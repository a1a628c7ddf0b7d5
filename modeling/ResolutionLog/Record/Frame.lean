import ResolutionLog.Record.Body

/-! # Frames

A record is framed by a header of five bytes: the tag of its kind, and the length of its body in four
bytes, the lowest first. Writers refuse bodies longer than `frameLimit`, and readers refuse headers
that announce such a body. -/

namespace ResolutionLog

/-- The number of bytes before a body. -/
def headerLength : Nat := 5

/-- The length of the longest body that a frame may hold. -/
def frameLimit : Nat := 16 * 1024 * 1024

/-- The length of a body in four bytes, the lowest first. -/
def lengthBytes (n : Nat) : List UInt8 :=
  [UInt8.ofNat n, UInt8.ofNat (n / 256), UInt8.ofNat (n / 65536), UInt8.ofNat (n / 16777216)]

/-- The number in some bytes, the lowest first. -/
def numberOfBytes (bytes : List UInt8) : Nat := bytes.foldr (fun b n => b.toNat + 256 * n) 0

/-- A length is read back from its bytes. -/
theorem numberOfBytes_lengthBytes {n : Nat} (h : n < UInt32.size) :
    numberOfBytes (lengthBytes n) = n := by
  simp only [numberOfBytes, lengthBytes, List.foldr_cons, List.foldr_nil, UInt8.toNat_ofNat', UInt32.size] at *
  omega

/-- Any four bytes are the length that they stand for, in four bytes. -/
theorem lengthBytes_numberOfBytes {bytes : List UInt8} (h : bytes.length = 4) :
    lengthBytes (numberOfBytes bytes) = bytes := by
  match bytes, h with
  | [a, b, c, d], _ =>
    have ha := a.toNat_lt
    have hb := b.toNat_lt
    have hc := c.toNat_lt
    have hd := d.toNat_lt
    simp only [numberOfBytes, lengthBytes, List.foldr_cons, List.foldr_nil, List.cons.injEq,
      and_true, ← UInt8.toNat_inj, UInt8.toNat_ofNat']
    omega

/-- A framed record: what is written first, and what is written second. -/
structure Frame where
  header : List UInt8
  body : List UInt8
deriving DecidableEq, Repr

namespace Frame

/-- The bytes of a frame in the stream. -/
def bytes (f : Frame) : List UInt8 := f.header ++ f.body

/-- The frame of a body of the given kind. -/
def ofBody (kind : RecordKind) (body : List UInt8) : Frame :=
  ⟨kind.tag :: lengthBytes body.length, body⟩

/-- A frame is as long as its header and its body. -/
@[simp] theorem length_bytes_ofBody (kind : RecordKind) (body : List UInt8) :
    (ofBody kind body).bytes.length = headerLength + body.length := by
  simp only [bytes, ofBody, lengthBytes, headerLength, List.length_append, List.length_cons,
    List.length_nil]

end Frame

namespace Record

/-- The frame of a record, unless its body is too long for one. -/
def frame (r : Record) : Except LogError Frame :=
  let body := r.encodeBody
  let length := body.length
  if length ≤ frameLimit then .ok (.ofBody r.kind body)
  else .error (.unencodable (.oversizedBody r.kind length))

/-- A record has a frame when its body is not too long. -/
theorem frame_eq_ok_iff {r : Record} {f : Frame} :
    r.frame = .ok f ↔ r.encodeBody.length ≤ frameLimit ∧ f = .ofBody r.kind r.encodeBody := by
  simp only [frame]
  split
  · next h => simpa [h] using eq_comm
  · next h => simp [h]

end Record

end ResolutionLog
