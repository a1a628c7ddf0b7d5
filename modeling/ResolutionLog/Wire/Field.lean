import ResolutionLog.Wire.Varint

/-! # Texts and options in bytes

A text is written as its length in bytes and then its UTF-8 bytes, an optional text as one byte that
says whether a text follows. Each writer has a reader that gives the value back with the bytes after
it (`takeText_putText_append`, `takeOption_putOption_append`). -/

namespace ResolutionLog.Wire

/-! ## UTF-8 -/

/-- The UTF-8 bytes of a text. -/
def textBytes (s : String) : List UInt8 := s.toByteArray.data.toList

/-- The text with the given UTF-8 bytes, if they are valid. -/
def textOfBytes? (bytes : List UInt8) : Option String := String.fromUTF8? ⟨bytes.toArray⟩

/-- A text is read back from its bytes. -/
@[simp] theorem textOfBytes?_textBytes (s : String) : textOfBytes? (textBytes s) = some s := by
  simp only [textOfBytes?, textBytes, Array.toArray_toList, String.fromUTF8?]
  exact dif_pos s.isValidUTF8

/-- Only the bytes of a text are read as that text. -/
theorem textBytes_of_textOfBytes? {bytes : List UInt8} {s : String}
    (h : textOfBytes? bytes = some s) : textBytes s = bytes := by
  rw [textOfBytes?, String.fromUTF8?] at h
  split at h
  · obtain rfl := Option.some.inj h
    simp [textBytes, String.fromUTF8]
  · simp at h

/-- A text has as many bytes as its UTF-8 form. -/
@[simp] theorem length_textBytes (s : String) : (textBytes s).length = s.utf8ByteSize := by
  rw [textBytes, Array.length_toList]
  rfl

/-! ## Texts -/

/-- The length of a text is a number of 64 bits, as the number before its bytes demands. -/
def Fits (s : String) : Prop := s.utf8ByteSize < UInt64.size

/-- The bytes of a text behind its length. -/
def putText (s : String) : List UInt8 := putWord s.utf8ByteSize ++ textBytes s

/-- The text at the front. -/
def takeText (bytes : List UInt8) : Except WireFault (String × List UInt8) := do
  let (length, rest) ← takeWord bytes
  let content := rest.take length
  if content.length < length then throw .endOfInput
  match textOfBytes? content with
  | none => throw .badText
  | some s => return (s, rest.drop length)

/-- Texts that fit survive writing and reading. -/
theorem takeText_putText_append {s : String} (h : Fits s) (rest : List UInt8) :
    takeText (putText s ++ rest) = .ok (s, rest) := by
  have ht : (textBytes s ++ rest).take s.utf8ByteSize = textBytes s := by
    rw [← length_textBytes]
    exact List.take_left
  have hd : (textBytes s ++ rest).drop s.utf8ByteSize = rest := by
    rw [← length_textBytes]
    exact List.drop_left
  simp [takeText, putText, takeWord_putWord_append h, ht, hd, bind, Except.bind, pure, Except.pure]

/-! ## Optional texts -/

/-- The bytes of an optional text: a zero for none, a one before the text. -/
def putOption : Option String → List UInt8
  | none => [0]
  | some s => 1 :: putText s

/-- The optional text at the front. -/
def takeOption : List UInt8 → Except WireFault (Option String × List UInt8)
  | [] => throw .endOfInput
  | b :: rest =>
    if b = 0 then return (none, rest)
    else if b = 1 then do
      let (s, rest) ← takeText rest
      return (some s, rest)
    else throw .badOption

/-- Optional texts survive writing and reading. -/
theorem takeOption_putOption_append {o : Option String} (h : ∀ s ∈ o, Fits s)
    (rest : List UInt8) : takeOption (putOption o ++ rest) = .ok (o, rest) := by
  cases o with
  | none => rfl
  | some s =>
    simp [takeOption, putOption, takeText_putText_append (h s rfl), bind, Except.bind, pure,
      Except.pure]

end ResolutionLog.Wire
