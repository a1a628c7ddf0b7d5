import ResolutionLog.Proofs.Rewriting

/-! # Selectors in the middle of a body

A selector stands between other fields. It is written behind what a buffer already holds (`Selector.putOnto`), and
read from the front of what is left of a body. Reading checks what the constructors check, so the selectors that
are read are those that a constructor would make (`Selector.made_iff_named`), and a selector that one has made is
read back as it is. Main statement: `Selector.take_of_putOnto`. -/

namespace ResolutionLog

open Wire

namespace Selector

/-- A selector that one of the constructors has made. -/
inductive Made : Selector → Prop where
  | build {path : String} {s : Selector} (made : checkedBuild path = .ok s) : Made s
  | module {group name version : String} {s : Selector} (made : checkedModule group name version = .ok s) : Made s
  | library {path : String} {name variant : Option String} {s : Selector}
    (made : checkedLibrary path name variant = .ok s) : Made s

/-- The constructors make just the selectors that are named. -/
theorem made_iff_named {s : Selector} : s.Made ↔ s.Named := by
  constructor
  · intro h
    cases h with
    | build made => exact (checkedBuild_eq_ok_iff.1 made).2
    | module made => exact (checkedModule_eq_ok_iff.1 made).2
    | library made => exact (checkedLibrary_eq_ok_iff.1 made).2
  · intro h
    cases s with
    | build path => exact .build (checkedBuild_eq_ok_iff.2 ⟨rfl, h⟩)
    | module group name version => exact .module (checkedModule_eq_ok_iff.2 ⟨rfl, h⟩)
    | library path name variant => exact .library (checkedLibrary_eq_ok_iff.2 ⟨rfl, h⟩)

/-- A buffer after a selector has been written to it: the tag is added first, and then the parts. -/
def putOnto (buffer : List UInt8) (s : Selector) : List UInt8 := (buffer ++ [s.tag]) ++ s.putParts

/-- Writing a selector leaves what the buffer held. -/
theorem putOnto_eq (buffer : List UInt8) (s : Selector) : s.putOnto buffer = buffer ++ s.put := by
  rw [putOnto, List.append_assoc, List.singleton_append, put]

/-- A selector that is read uses up bytes, at least as many as are written for it. -/
theorem exists_used_of_take {bytes rest : List UInt8} {s : Selector} (h : take bytes = .ok (s, rest)) :
    ∃ used, used ≠ [] ∧ bytes = used ++ rest ∧ s.put.length ≤ used.length := by
  obtain ⟨used, rfl, -⟩ := delimited_take bytes s rest h
  have hle := length_put_add_le h
  rw [List.length_append] at hle
  have hused : s.put.length ≤ used.length := by omega
  refine ⟨used, ?_, rfl, hused⟩
  rintro rfl
  rw [put, List.length_cons, List.length_nil] at hused
  omega

/-- **Selectors are read back**: a selector that a constructor has made is written behind what a buffer holds, as in
the body of a failed request, and the bytes added there are read as this selector, with whatever follows them left.
A selector that is read from any bytes is one without blank parts, uses up some of the bytes, and is written again
in no more of them. A first byte that is none of the three tags is refused, whatever follows. -/
theorem take_of_putOnto :
    (∀ s : Selector, s.Made → s.Fits →
      (∀ buffer rest, ∃ added, s.putOnto buffer = buffer ++ added ∧ take (added ++ rest) = .ok (s, rest)) ∧
      ∀ parent reason, (Record.unresolved parent s reason).encodeBody = s.putOnto parent.put ++ putText reason) ∧
    (∀ bytes s rest, take bytes = .ok (s, rest) →
      s.Named ∧ ∃ used, used ≠ [] ∧ bytes = used ++ rest ∧ s.put.length ≤ used.length) ∧
    ∀ tag rest, tag ∉ [1, 2, 3] → take (tag :: rest) = .error (.unsupportedSelector tag) := by
  refine ⟨fun s hmade hf => ⟨fun buffer rest => ?_, fun parent reason => ?_⟩, fun bytes s rest h => ?_,
    fun tag rest htag => ?_⟩
  · exact ⟨s.put, putOnto_eq buffer s, take_put_append (made_iff_named.1 hmade) hf rest⟩
  · rw [putOnto_eq, List.append_assoc, Record.encodeBody]
  · exact ⟨named_of_take h, exists_used_of_take h⟩
  · simp only [List.mem_cons, List.not_mem_nil, or_false, not_or] at htag
    exact take_of_tag_ne htag.1 htag.2.1 htag.2.2 rest

/-- A variant of a library without a name, written behind a byte, and a project whose path is preceded by a length
with a group more than it needs. -/
theorem take_of_putOnto_sample :
    (∃ added, putOnto [7] (library ":lib" none (some "debug")) = [7] ++ added ∧
      take (added ++ [0xAA, 0xBB]) = .ok (library ":lib" none (some "debug"), [0xAA, 0xBB])) ∧
    (∃ used : List UInt8, used ≠ [] ∧ [1, 0x82, 0, 0x3A, 0x61, 9] = used ++ [9] ∧
      (build ":a").put.length ≤ used.length) ∧
    take [4, 0] = .error (.unsupportedSelector 4) := by
  obtain ⟨hwritten, hread, hrefused⟩ := take_of_putOnto
  have hmade : (library ":lib" none (some "debug")).Made := made_iff_named.2 (by decide +kernel)
  have hfits : (library ":lib" none (some "debug")).Fits := fun part hp text ht =>
    Nat.lt_of_le_of_lt (utf8ByteSize_le_length_put hp ht) (by decide +kernel)
  have htake : take [1, 0x82, 0, 0x3A, 0x61, 9] = .ok (build ":a", [9]) := by rfl
  exact ⟨(hwritten _ hmade hfits).1 [7] [0xAA, 0xBB], (hread _ _ _ htake).2, hrefused 4 [0] (by decide)⟩

end Selector

end ResolutionLog
