import ResolutionLog.Component

/-! # Selectors

A *selector* says what a dependency asked for, before resolution picked a component: a project of the
same build, a module in an acceptable version, or a library variant of a project. `Selector.exact` is
the narrowest selector for a component, and `Selector.admits` says which components satisfy a
request. -/

namespace ResolutionLog

open Std

/-! ## Version constraints -/

/-- A requested version: one version, or all versions that begin with what stands before a final
plus sign. -/
structure VersionConstraint where
  text : String
deriving DecidableEq, Repr, Inhabited

namespace VersionConstraint

/-- What stands before a final plus sign, if the text ends in one. -/
def stem? (c : VersionConstraint) : Option (List Char) :=
  if c.text.toList.getLast? = some '+' then some c.text.toList.dropLast else none

/-- A range accepts the versions that begin with its stem, any other constraint its own text. -/
def accepts (c : VersionConstraint) (version : String) : Bool :=
  match c.stem? with
  | some stem => stem <+: version.toList
  | none => c.text == version

instance : ToString VersionConstraint := ⟨text⟩

end VersionConstraint

/-! ## Selectors -/

/-- A request for a component. -/
inductive Selector where
  /-- Another project of the same build. -/
  | build (path : String)
  /-- An external module in a version that the constraint accepts. -/
  | module (group name : String) (version : VersionConstraint)
  /-- A library of a project, perhaps in a named variant. -/
  | library (path : String) (name variant : Option String)
deriving DecidableEq, Repr, Inhabited

namespace Selector

/-- The byte that stands for the kind of request in its encoding. -/
def tag : Selector → UInt8
  | .build .. => 1
  | .module .. => 2
  | .library .. => 3

/-- The parts of a request, in the order in which they are compared. -/
def parts : Selector → List (Option String)
  | .build path => [some path]
  | .module group name version => [some group, some name, some version.text]
  | .library path name variant => [some path, name, variant]

/-- A request is shown like the component it asks for; the names of a library and a variant follow
in quotes. -/
def display : Selector → String
  | .build path => s!"project {path}"
  | .module group name version => s!"{group}:{name}:{version}"
  | .library path name variant =>
    let namePart := match name with
      | some n => s!" library '{n}'"
      | none => ""
    let variantPart := match variant with
      | some v => s!" variant '{v}'"
      | none => ""
    s!"project {path}{namePart}{variantPart}"

instance : ToString Selector := ⟨display⟩

/-- A request is named when no part of it is blank; an absent library or variant is not blank. -/
def Named (s : Selector) : Prop := ∀ part ∈ s.parts, ∀ text ∈ part, Text.isBlank text = false

instance : DecidablePred Named := fun s =>
  inferInstanceAs (Decidable (∀ part ∈ s.parts, ∀ text ∈ part, Text.isBlank text = false))

/-- The narrowest request for a component: its own version, or its own path. -/
def exact : ComponentId → Selector
  | .module id => .module id.group id.name ⟨id.version⟩
  | .project id => .build id.path

/-- Whether a component satisfies a request. Projects are compared by path alone, whatever build
they belong to and whatever library is asked for. -/
def admits : Selector → ComponentId → Bool
  | .module group name version, .module id =>
    id.group == group && id.name == name && version.accepts id.version
  | .build path, .project id => id.path == path
  | .library path _ _, .project id => id.path == path
  | _, _ => false

/-- Requests are ordered by kind (build, module, library), then by their parts from the first on. -/
instance : Ord Selector := ⟨compareLex (compareOn tag) (compareOn parts)⟩

instance : TransOrd Selector :=
  inferInstanceAs (TransCmp (compareLex (compareOn tag) (compareOn parts)))

/-- A selector is told by its tag and its parts. -/
theorem eq_of_tag_parts {a b : Selector} (ht : a.tag = b.tag) (hp : a.parts = b.parts) : a = b := by
  match a, b with
  | .build p, .build q => simpa [parts] using hp
  | .module g n ⟨v⟩, .module g' n' ⟨v'⟩ => simpa [parts] using hp
  | .library p l v, .library p' l' v' => simpa [parts] using hp
  | .build .., .module .. | .build .., .library .. | .module .., .build ..
  | .module .., .library .. | .library .., .build .. | .library .., .module .. => simp [tag] at ht

instance : LawfulEqOrd Selector where
  eq_of_compare {a b} h := by
    have h' : compareLex (compareOn tag) (compareOn parts) a b = .eq := h
    simp only [compareLex_eq_eq, compareOn, Std.compare_eq_iff_eq] at h'
    exact eq_of_tag_parts h'.1 h'.2

end Selector

end ResolutionLog
