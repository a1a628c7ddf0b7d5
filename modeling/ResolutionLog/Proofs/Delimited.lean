import ResolutionLog.Proofs.Frames

/-! # Readers that know where to stop

No field of a record is followed by a mark, and none is preceded by its length, texts apart. A reader has to know
from the bytes of a field alone where the field ends. Then whatever is written behind it is left for the next
reader, and a field that is cut short anywhere is missed: the reader fails, and says that it ran out of bytes.

`SelfDelimiting` says this of a reader: the bytes that it uses up *spell* the value that it gives. It goes through
sequences of readers (`SelfDelimiting.bind`), so it is shown for numbers and texts first and then for whatever is
made of them, whether or not a writer would have written the bytes. Main statements: `Record.delimited_takeFields`,
and what follows from it for bodies, `Record.decodeBody_append` and `Record.decodeBody_front`. -/

namespace ResolutionLog

section Readers

variable {ε ε' α β : Type} {short : ε → Prop} {short' : ε' → Prop}
  {take : List UInt8 → Except ε (α × List UInt8)}

/-- **Some bytes spell a value**: a reader that finds them uses them up and leaves what follows, and a reader that
finds only a beginning of them fails because it is too short. -/
structure Spells (short : ε → Prop) (take : List UInt8 → Except ε (α × List UInt8)) (used : List UInt8)
    (a : α) : Prop where
  take_append : ∀ rest, take (used ++ rest) = .ok (a, rest)
  take_front : ∀ front back, used = front ++ back → back ≠ [] → ∃ e, take front = .error e ∧ short e

/-- **A reader is self-delimiting** when the bytes that it uses up spell the value that it gives. -/
def SelfDelimiting (short : ε → Prop) (take : List UInt8 → Except ε (α × List UInt8)) : Prop :=
  ∀ bytes a rest, take bytes = .ok (a, rest) → ∃ used, bytes = used ++ rest ∧ Spells short take used a

namespace SelfDelimiting

/-- A result that does not come from the bytes uses up none of them. -/
theorem lift (x : Except ε α) : SelfDelimiting short fun bytes => x >>= fun a => .ok (a, bytes) := by
  intro bytes a rest h
  obtain ⟨b, rfl, hb⟩ := bind_eq_ok_iff.1 h
  cases hb
  refine ⟨[], rfl, fun rest => rfl, fun front back hused hback => ?_⟩
  exact absurd (List.append_eq_nil_iff.1 hused.symm).2 hback

/-- To take nothing delimits itself. -/
theorem pure (a : α) : SelfDelimiting short fun bytes => .ok (a, bytes) := lift (.ok a)

/-- A reader that always fails uses up nothing. -/
theorem fail (e : ε) : SelfDelimiting (α := α) short fun _ => .error e := fun _ _ _ h => nomatch h

/-- **One reader after another**: the first is missed when the bytes end within what it needs, the second when they
end behind that. -/
theorem bind {next : α → List UInt8 → Except ε (β × List UInt8)} (h : SelfDelimiting short take)
    (hnext : ∀ a, SelfDelimiting short (next a)) :
    SelfDelimiting short fun bytes => take bytes >>= fun p => next p.1 p.2 := by
  intro bytes b rest hb
  obtain ⟨⟨a, middle⟩, htake, htakeNext⟩ := bind_eq_ok_iff.1 hb
  obtain ⟨first, rfl, hfirst⟩ := h bytes a middle htake
  obtain ⟨second, rfl, hsecond⟩ := hnext a middle b rest htakeNext
  refine ⟨first ++ second, (List.append_assoc _ _ _).symm, fun rest => ?_, fun front back hused hback => ?_⟩
  · rw [List.append_assoc, hfirst.take_append]
    exact hsecond.take_append rest
  · rcases List.append_eq_append_iff.1 hused with ⟨begun, rfl, hbegun⟩ | ⟨missing, hmissing, rfl⟩
    · obtain ⟨e, he, hshort⟩ := hsecond.take_front begun back hbegun hback
      refine ⟨e, ?_, hshort⟩
      rw [hfirst.take_append]
      exact he
    · by_cases hnone : missing = []
      · -- the bytes end just where the second reader would begin
        subst hnone
        rw [List.append_nil] at hmissing
        subst hmissing
        obtain ⟨e, he, hshort⟩ := hsecond.take_front [] second rfl hback
        refine ⟨e, ?_, hshort⟩
        rw [← List.append_nil first, hfirst.take_append]
        exact he
      · obtain ⟨e, he, hshort⟩ := hfirst.take_front front missing hmissing hnone
        exact ⟨e, by rw [he]; rfl, hshort⟩

/-- What is read may be checked and put together before it is given. -/
theorem thenLift (h : SelfDelimiting short take) (f : α → Except ε β) :
    SelfDelimiting short fun bytes => take bytes >>= fun p => f p.1 >>= fun b => .ok (b, p.2) :=
  h.bind fun a => lift (f a)

/-- What is made of a value that was taken does not matter. -/
theorem map (h : SelfDelimiting short take) (f : α → β) :
    SelfDelimiting short fun bytes => take bytes >>= fun p => .ok (f p.1, p.2) :=
  h.bind fun a => pure (f a)

/-- The errors of a reader may be told in other words, if being too short can still be told from them. -/
theorem mapError (h : SelfDelimiting short take) {f : ε → ε'} (hf : ∀ e, short e → short' (f e)) :
    SelfDelimiting short' fun bytes => (take bytes).mapError f := by
  intro bytes a rest ha
  obtain ⟨used, rfl, hused⟩ := h bytes a rest (mapError_eq_ok_iff.1 ha)
  refine ⟨used, rfl, fun rest => by rw [hused.take_append]; rfl, fun front back heq hback => ?_⟩
  obtain ⟨e, he, hshort⟩ := hused.take_front front back heq hback
  exact ⟨f e, by rw [he]; rfl, hf e hshort⟩

/-- A reader may decide by the first byte how to go on, if it misses this byte when there is none. -/
theorem cons (hnil : ∃ e, take [] = .error e ∧ short e)
    (h : ∀ b, SelfDelimiting short fun bytes => take (b :: bytes)) : SelfDelimiting short take := by
  intro bytes a rest ha
  cases bytes with
  | nil =>
    obtain ⟨e, he, -⟩ := hnil
    rw [he] at ha
    cases ha
  | cons b bytes =>
    obtain ⟨used, rfl, hused⟩ := h b bytes a rest ha
    refine ⟨b :: used, rfl, hused.take_append, fun front back heq hback => ?_⟩
    cases front with
    | nil => exact hnil
    | cons c front =>
      obtain ⟨rfl, hrest⟩ := List.cons.inj heq
      exact hused.take_front front back hrest hback

end SelfDelimiting

end Readers

/-! ## Numbers and texts -/

namespace Wire

/-- A reader of a field misses bytes when it comes to the end of the input. -/
abbrev EndsEarly : WireFault → Prop := (· = .endOfInput)

/-- The last group of a number is marked, so a number is cut short or complete. -/
theorem Varint.delimited_read (lastMax groups : Nat) : SelfDelimiting EndsEarly (read lastMax groups) := by
  induction groups with
  | zero => exact .fail WireFault.badVarint
  | succ groups ih =>
    refine .cons ⟨.endOfInput, rfl, rfl⟩ fun b => ?_
    by_cases hlast : b.toNat < 128
    · by_cases hlarge : groups = 0 ∧ lastMax < b.toNat
      · simpa only [read, if_pos hlast, if_pos hlarge] using .fail WireFault.badVarint
      · simpa only [read, if_pos hlast, if_neg hlarge] using .pure b.toNat
    · have hmore : (fun bytes => read lastMax (groups + 1) (b :: bytes)) = fun bytes =>
          read lastMax groups bytes >>= fun p => .ok (b.toNat - 128 + 128 * p.1, p.2) := by
        funext bytes
        rw [read, if_neg hlast]
        cases read lastMax groups bytes <;> rfl
      rw [hmore]
      exact ih.map fun high => b.toNat - 128 + 128 * high

/-- A word delimits itself. -/
theorem delimited_takeWord : SelfDelimiting EndsEarly takeWord := Varint.delimited_read _ _

/-- An index delimits itself. -/
theorem delimited_takeIndex : SelfDelimiting EndsEarly takeIndex := Varint.delimited_read _ _

/-- The text in the next bytes, of which there must be so many. -/
def takeContent (length : Nat) (bytes : List UInt8) : Except WireFault (String × List UInt8) :=
  if (bytes.take length).length < length then .error .endOfInput
  else match textOfBytes? (bytes.take length) with
    | none => .error .badText
    | some s => .ok (s, bytes.drop length)

/-- A text is read as its length and then its bytes. -/
theorem takeText_eq_bind (bytes : List UInt8) :
    takeText bytes = takeWord bytes >>= fun p => takeContent p.1 p.2 := rfl

/-- The text in some bytes is the one that is written with just these bytes. -/
theorem takeContent_eq_ok_iff {length : Nat} {bytes rest : List UInt8} {s : String} :
    takeContent length bytes = .ok (s, rest) ↔ length = s.utf8ByteSize ∧ bytes = textBytes s ++ rest := by
  constructor
  · intro h
    unfold takeContent at h
    split at h
    · cases h
    · next henough =>
      split at h
      · cases h
      · next t htext =>
        obtain ⟨rfl, rfl⟩ := Prod.mk.inj (Except.ok.inj h)
        -- the bytes of the text are those in front, so there are as many
        have hbytes := textBytes_of_textOfBytes? htext
        have hlength := length_textBytes t
        rw [hbytes] at hlength
        refine ⟨?_, ?_⟩
        · rw [List.length_take] at hlength henough
          omega
        · rw [hbytes, List.take_append_drop]
  · rintro ⟨rfl, rfl⟩
    rw [← length_textBytes]
    simp [takeContent]

/-- Too few bytes hold no text. -/
theorem takeContent_of_lt {length : Nat} {bytes : List UInt8} (h : bytes.length < length) :
    takeContent length bytes = .error .endOfInput := by
  have hshort : (bytes.take length).length < length := by
    rw [List.length_take]
    omega
  rw [takeContent, if_pos hshort]

/-- Content of a known length delimits itself. -/
theorem delimited_takeContent (length : Nat) : SelfDelimiting EndsEarly (takeContent length) := by
  intro bytes s rest h
  obtain ⟨rfl, rfl⟩ := takeContent_eq_ok_iff.1 h
  refine ⟨textBytes s, rfl, fun rest => takeContent_eq_ok_iff.2 ⟨rfl, rfl⟩, fun front back heq hback => ?_⟩
  refine ⟨.endOfInput, takeContent_of_lt ?_, rfl⟩
  have hpos := List.length_pos_iff.2 hback
  rw [← length_textBytes, heq, List.length_append]
  omega

/-- A text delimits itself by the length in front of it. -/
theorem delimited_takeText : SelfDelimiting EndsEarly takeText :=
  delimited_takeWord.bind delimited_takeContent

/-- A text that may be missing delimits itself by the mark in front of it. -/
theorem delimited_takeOption : SelfDelimiting EndsEarly takeOption := by
  refine .cons ⟨.endOfInput, rfl, rfl⟩ fun b => ?_
  by_cases hnone : b = 0
  · simpa only [takeOption, if_pos hnone] using .pure (none : Option String)
  · by_cases hsome : b = 1
    · simp only [takeOption, if_neg hnone, if_pos hsome]
      exact delimited_takeText.map some
    · simpa only [takeOption, if_neg hnone, if_neg hsome] using .fail WireFault.badOption

end Wire

/-! ## Components, keys and selectors -/

open Wire

/-- The parts of a component of some variant. -/
def ComponentId.takeParts (variant : Nat) (bytes : List UInt8) : Except WireFault (ComponentId × List UInt8) :=
  match variant with
  | 0 => do
    let (group, rest) ← takeText bytes
    let (name, rest) ← takeText rest
    let (version, rest) ← takeText rest
    .ok (.module ⟨group, name, version⟩, rest)
  | 1 => do
    let (build, rest) ← takeText bytes
    let (path, rest) ← takeText rest
    .ok (.project ⟨build, path⟩, rest)
  | _ => .error .unknownVariant

/-- A component is read as its variant and then its parts. -/
theorem ComponentId.take_eq_bind (bytes : List UInt8) :
    ComponentId.take bytes = takeIndex bytes >>= fun p => takeParts p.1 p.2 := rfl

/-- The parts of a component of any kind delimit themselves. -/
theorem ComponentId.delimited_takeParts (variant : Nat) : SelfDelimiting EndsEarly (takeParts variant) := by
  match variant with
  | 0 =>
    have h := delimited_takeText.bind fun group => delimited_takeText.bind fun name =>
      delimited_takeText.map fun version => ComponentId.module ⟨group, name, version⟩
    exact h
  | 1 =>
    have h := delimited_takeText.bind fun build =>
      delimited_takeText.map fun path => ComponentId.project ⟨build, path⟩
    exact h
  | _ + 2 => exact .fail WireFault.unknownVariant

/-- A component delimits itself. -/
theorem ComponentId.delimited_take : SelfDelimiting EndsEarly ComponentId.take :=
  delimited_takeIndex.bind ComponentId.delimited_takeParts

/-- A node key delimits itself. -/
theorem NodeKey.delimited_take : SelfDelimiting EndsEarly NodeKey.take := by
  have hkey := ComponentId.delimited_take.bind fun component =>
    delimited_takeText.map fun configuration => NodeKey.mk component configuration
  exact hkey

/-- Whether a fault tells that a body ends before its fields do. -/
def DecodeFault.isShort : DecodeFault → Bool
  | .recordField _ .endOfInput | .selectorField .endOfInput | .missingSelectorTag => true
  | _ => false

/-- A reader of records or selectors misses bytes when a fault tells so. -/
def LogError.Short (e : LogError) : Prop := ∃ fault : DecodeFault, e = .undecodable fault ∧ fault.isShort = true

namespace Selector

/-- A selector with a tag that no kind of selector has is not read, whatever follows the tag. -/
theorem take_of_tag_ne {tag : UInt8} (hbuild : tag ≠ 1) (hmodule : tag ≠ 2) (hlibrary : tag ≠ 3)
    (rest : List UInt8) : take (tag :: rest) = .error (.unsupportedSelector tag) := by
  unfold take
  split
  · next h => cases h
  · next h => exact absurd (List.cons.inj h).1 hbuild
  · next h => exact absurd (List.cons.inj h).1 hmodule
  · next h => exact absurd (List.cons.inj h).1 hlibrary
  · next h =>
    rw [(List.cons.inj h).1]
    rfl

/-- A part of a selector delimits itself as a field does. -/
theorem delimited_takePart {α : Type} {read : List UInt8 → Except WireFault (α × List UInt8)}
    (h : SelfDelimiting EndsEarly read) : SelfDelimiting LogError.Short (takePart read) := by
  refine h.mapError fun fault hfault => ⟨.selectorField fault, rfl, ?_⟩
  rw [hfault]
  rfl

/-- A selector delimits itself. -/
theorem delimited_take : SelfDelimiting LogError.Short take := by
  have htext := delimited_takePart delimited_takeText
  have hoption := delimited_takePart delimited_takeOption
  refine .cons ⟨_, rfl, .missingSelectorTag, rfl, rfl⟩ fun tag => ?_
  by_cases hbuild : tag = 1
  · subst hbuild
    exact htext.thenLift checkedBuild
  · by_cases hmodule : tag = 2
    · subst hmodule
      exact htext.bind fun group => htext.bind fun name => htext.thenLift (checkedModule group name)
    · by_cases hlibrary : tag = 3
      · subst hlibrary
        exact htext.bind fun path => hoption.bind fun name => hoption.thenLift (checkedLibrary path name)
      · simpa only [take_of_tag_ne hbuild hmodule hlibrary] using .fail (LogError.unsupportedSelector tag)

end Selector

/-! ## Bodies -/

namespace Record

/-- A field of a record delimits itself within its body. -/
theorem delimited_takeField {α : Type} {read : List UInt8 → Except WireFault (α × List UInt8)}
    (h : SelfDelimiting EndsEarly read) (kind : RecordKind) :
    SelfDelimiting LogError.Short (takeField kind read) := by
  refine h.mapError fun fault hfault => ⟨.recordField kind fault, rfl, ?_⟩
  rw [hfault]
  rfl

/-- **The fields of a record** know where they end, whatever its kind is. -/
theorem delimited_takeFields (kind : RecordKind) :
    SelfDelimiting LogError.Short fun bytes => takeFields bytes kind := by
  have hkey := delimited_takeField NodeKey.delimited_take kind
  cases kind with
  | newNode => exact hkey.map newNode
  | root => exact hkey.map root
  | firstLevel => exact hkey.map firstLevel
  | parentChild =>
    have hnumber := delimited_takeField delimited_takeWord .parentChild
    have h := hkey.bind fun parent => hkey.bind fun child =>
      hnumber.map fun number => parentChild parent child ⟨UInt64.ofNat number⟩
    exact h
  | unresolved =>
    have hreason := delimited_takeField delimited_takeText .unresolved
    have h := hkey.bind fun parent => Selector.delimited_take.bind fun requested =>
      hreason.map fun reason => unresolved parent requested reason
    exact h

/-- A body that decodes spells its record. -/
theorem spells_of_decodeBody {kind : RecordKind} {body : List UInt8} {record : Record}
    (h : decodeBody kind body = .ok record) :
    Spells LogError.Short (fun bytes => takeFields bytes kind) body record := by
  obtain ⟨used, hbody, hused⟩ := delimited_takeFields kind body record [] (decodeBody_eq_ok_iff.1 h)
  rw [List.append_nil] at hbody
  rwa [hbody]

/-- A body with more behind it is refused for what is left over. -/
theorem decodeBody_append {kind : RecordKind} {body more : List UInt8} {record : Record}
    (h : decodeBody kind body = .ok record) (hmore : more ≠ []) :
    decodeBody kind (body ++ more) = .error (.undecodable (.trailingBytes kind more.length)) := by
  have hfields : takeFields (body ++ more) kind = .ok (record, more) :=
    (spells_of_decodeBody h).take_append more
  have hleft : more.isEmpty = false := List.isEmpty_eq_false_iff.2 hmore
  rw [decodeBody, hfields]
  show (if more.isEmpty = true then _ else _) = _
  rw [hleft]
  rfl

/-- A body that is cut short is refused because it is. -/
theorem decodeBody_front {kind : RecordKind} {front back : List UInt8} {record : Record}
    (h : decodeBody kind (front ++ back) = .ok record) (hback : back ≠ []) :
    ∃ fault : DecodeFault, decodeBody kind front = .error (.undecodable fault) ∧ fault.isShort = true := by
  obtain ⟨e, he, fault, rfl, hshort⟩ := (spells_of_decodeBody h).take_front front back rfl hback
  refine ⟨fault, ?_, hshort⟩
  have hfields : takeFields front kind = .error (.undecodable fault) := he
  rw [decodeBody, hfields]
  rfl

end Record

end ResolutionLog
