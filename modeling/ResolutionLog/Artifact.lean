import Std.Data.ExtTreeSet

/-! # Artifacts

An *artifact* is a published file, named by a base name, an extension and perhaps a classifier. A
component exposes a set of artifacts to each of its parents. Edges of a recorded stream carry a
*handle* in place of the set. -/

namespace ResolutionLog

open Std

/-- The name of a published file. -/
structure Artifact where
  name : String
  extension : String
  classifier : Option String
deriving DecidableEq, Repr, Inhabited

namespace Artifact

/-- The parts of an artifact in the order in which they are compared: a missing classifier comes
before every other one. -/
def parts (a : Artifact) : List String := a.name :: a.extension :: a.classifier.toList

/-- An artifact is shown as a file name: the classifier follows a dash, an extension follows a
dot, and what is missing or empty leaves no mark. -/
def display (a : Artifact) : String :=
  let classifier := match a.classifier with
    | some c => s!"-{c}"
    | none => ""
  let extension := if a.extension = "" then "" else s!".{a.extension}"
  s!"{a.name}{classifier}{extension}"

instance : ToString Artifact := ⟨display⟩

/-- An artifact is told by its parts. -/
theorem parts_injective : Function.Injective parts := by
  rintro ⟨n, e, c⟩ ⟨n', e', c'⟩ h
  cases c <;> cases c' <;> simp_all [parts]

/-- Artifacts are ordered by name, then extension, then classifier. -/
instance : Ord Artifact := ⟨compareOn parts⟩

instance : TransOrd Artifact := inferInstanceAs (TransCmp (compareOn parts))

instance : LawfulEqOrd Artifact where
  eq_of_compare {a b} h := parts_injective (LawfulEqOrd.eq_of_compare (h : compareOn parts a b = .eq))

end Artifact

/-- A set of artifacts, listed in the order of its members. -/
abbrev ArtifactSet := ExtTreeSet Artifact

namespace ArtifactSet

/-- Sets are equal when they are found equal. -/
instance : LawfulBEq ArtifactSet := inferInstance

/-- Sets are compared like the lists of their members. -/
instance : Ord ArtifactSet := ⟨compareOn ExtTreeSet.toList⟩

instance : TransOrd ArtifactSet := inferInstanceAs (TransCmp (compareOn ExtTreeSet.toList))

instance : LawfulEqOrd ArtifactSet where
  eq_of_compare {a b} h := ExtTreeSet.toList_inj.1
    (LawfulEqOrd.eq_of_compare (h : compareOn ExtTreeSet.toList a b = .eq))

end ArtifactSet

/-- The number that stands for an artifact set in a recorded edge. -/
structure ArtifactHandle where
  number : UInt64
deriving DecidableEq, Repr, Inhabited

namespace ArtifactHandle

/-- A handle is shown as its number after a number sign. -/
def display (h : ArtifactHandle) : String := s!"#{h.number}"

instance : ToString ArtifactHandle := ⟨display⟩

/-- Handles are ordered by their numbers. -/
instance : Ord ArtifactHandle := ⟨compareOn number⟩

instance : TransOrd ArtifactHandle := inferInstanceAs (TransCmp (compareOn number))

instance : LawfulEqOrd ArtifactHandle where
  eq_of_compare {a b} h := congrArg mk (LawfulEqOrd.eq_of_compare (h : compareOn number a b = .eq))

end ArtifactHandle

end ResolutionLog
