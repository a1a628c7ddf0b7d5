import ResolutionLog.Identifier
import ResolutionLog.Wire.Field

/-! # Selectors in bytes

A selector is written as its tag and then its parts. After all parts are read they are checked as if
they came from outside, so every selector in a stream is named. Tag 4 is reserved and no selector has
it. Main statement: `Selector.take_put_append`. -/

namespace ResolutionLog

open Wire

namespace Selector

/-- The bytes of the parts of a selector. -/
def putParts : Selector → List UInt8
  | .build path => putText path
  | .module group name version => putText group ++ (putText name ++ putText version.text)
  | .library path name variant => putText path ++ (putOption name ++ putOption variant)

/-- The bytes of a selector. -/
def put (s : Selector) : List UInt8 := s.tag :: s.putParts

/-- A reader of parts, with its faults told apart from those of other fields. -/
def takePart {α : Type} (read : List UInt8 → Except WireFault (α × List UInt8))
    (bytes : List UInt8) : Except LogError (α × List UInt8) :=
  (read bytes).mapError fun fault => .undecodable (.selectorField fault)

/-- The selector at the front. -/
def take : List UInt8 → Except LogError (Selector × List UInt8)
  | [] => throw (.undecodable .missingSelectorTag)
  | 1 :: rest => do
    let (path, rest) ← takePart takeText rest
    return (← checkedBuild path, rest)
  | 2 :: rest => do
    let (group, rest) ← takePart takeText rest
    let (name, rest) ← takePart takeText rest
    let (version, rest) ← takePart takeText rest
    return (← checkedModule group name version, rest)
  | 3 :: rest => do
    let (path, rest) ← takePart takeText rest
    let (name, rest) ← takePart takeOption rest
    let (variant, rest) ← takePart takeOption rest
    return (← checkedLibrary path name variant, rest)
  | tag :: _ => throw (.unsupportedSelector tag)

/-- All parts of a selector fit. -/
def Fits (s : Selector) : Prop := ∀ part ∈ s.parts, ∀ text ∈ part, Wire.Fits text

/-- A text is taken as a part of a selector from what was put, whatever follows. -/
@[simp] theorem takePart_takeText {s : String} (h : Wire.Fits s) (rest : List UInt8) :
    takePart takeText (putText s ++ rest) = .ok (s, rest) := by
  rw [takePart, takeText_putText_append h]
  rfl

/-- A text that may be missing is taken as a part of a selector from what was put, whatever follows. -/
@[simp] theorem takePart_takeOption {o : Option String} (h : ∀ s ∈ o, Wire.Fits s)
    (rest : List UInt8) : takePart takeOption (putOption o ++ rest) = .ok (o, rest) := by
  rw [takePart, takeOption_putOption_append h]
  rfl

/-- Named selectors survive writing and reading. -/
theorem take_put_append {s : Selector} (hn : s.Named) (hf : s.Fits) (rest : List UInt8) :
    take (s.put ++ rest) = .ok (s, rest) := by
  cases s with
  | build path =>
    have hp : Wire.Fits path := hf (some path) (by simp [parts]) path rfl
    have hc := checkedBuild_eq_ok_iff.2 ⟨rfl, hn⟩
    simp [take, put, tag, putParts, takePart_takeText hp, hc, bind, Except.bind, pure, Except.pure]
  | module group name version =>
    have hg : Wire.Fits group := hf (some group) (by simp [parts]) group rfl
    have hm : Wire.Fits name := hf (some name) (by simp [parts]) name rfl
    have hv : Wire.Fits version.text := hf (some version.text) (by simp [parts]) version.text rfl
    have hc := checkedModule_eq_ok_iff.2 ⟨rfl, hn⟩
    simp [take, put, tag, putParts, takePart_takeText hg, takePart_takeText hm,
      takePart_takeText hv, hc, bind, Except.bind, pure, Except.pure]
  | library path name variant =>
    have hp : Wire.Fits path := hf (some path) (by simp [parts]) path rfl
    have hm : ∀ t ∈ name, Wire.Fits t := hf name (by simp [parts])
    have hv : ∀ t ∈ variant, Wire.Fits t := hf variant (by simp [parts])
    have hc := checkedLibrary_eq_ok_iff.2 ⟨rfl, hn⟩
    simp [take, put, tag, putParts, takePart_takeText hp, takePart_takeOption hm,
      takePart_takeOption hv, hc, bind, Except.bind, pure, Except.pure]

end Selector

end ResolutionLog
