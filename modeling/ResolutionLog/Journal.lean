/-! # Journals

A journal holds bytes that grow at their end. It keeps the pieces as they were appended, so that to
append costs the same however much is there already; what counts of a journal are its bytes. -/

namespace ResolutionLog

/-- The bytes of some pieces in a row; the last piece is shared, not copied. -/
def joinPieces : List (List UInt8) → List UInt8
  | [] => []
  | [piece] => piece
  | piece :: pieces => piece ++ joinPieces pieces

/-- Pieces are joined in order. -/
theorem joinPieces_eq_flatten (pieces : List (List UInt8)) : joinPieces pieces = pieces.flatten := by
  fun_induction joinPieces pieces <;> simp_all

/-- Bytes in the pieces in which they were appended. -/
structure Journal where
  /-- The pieces, the latest first. -/
  pieces : List (List UInt8)
deriving DecidableEq, Repr

namespace Journal

/-- A journal without bytes. -/
def empty : Journal := ⟨[]⟩

/-- All bytes, in the order in which they were appended. -/
def bytes (j : Journal) : List UInt8 := joinPieces j.pieces.reverse

/-- The number of bytes. -/
def size (j : Journal) : Nat := j.pieces.foldr (fun piece size => piece.length + size) 0

/-- Append bytes. -/
def append (j : Journal) (piece : List UInt8) : Journal := ⟨piece :: j.pieces⟩

/-- An empty journal has no bytes. -/
@[simp] theorem bytes_empty : empty.bytes = [] := rfl

/-- What is appended comes after everything else. -/
@[simp] theorem bytes_append (j : Journal) (piece : List UInt8) :
    (j.append piece).bytes = j.bytes ++ piece := by
  simp [bytes, append, joinPieces_eq_flatten]

/-- The size is that of the bytes. -/
theorem size_eq_length (j : Journal) : j.size = j.bytes.length := by
  obtain ⟨pieces⟩ := j
  induction pieces with
  | nil => rfl
  | cons piece pieces ih =>
    simp only [size, bytes, joinPieces_eq_flatten, List.foldr_cons, List.reverse_cons,
      List.flatten_append, List.flatten_cons, List.flatten_nil, List.append_nil,
      List.length_append] at ih ⊢
    omega

end Journal

end ResolutionLog
