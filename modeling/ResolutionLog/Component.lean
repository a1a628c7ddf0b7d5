import ResolutionLog.Text.Blank
import Std.Data.ExtTreeMap

/-! # Components and node keys

A *component* is what resolution selected: an external module, named by its group, name and version,
or a project of some build. A *node key* is a component within one configuration; it identifies a
node of a resolved graph.

Components and keys are ordered by their parts, modules before projects. The order is lawful
(`TransOrd`, `LawfulEqOrd`), so keys can index the ordered maps of the library. -/

namespace ResolutionLog

open Std

/-! ## Modules and projects -/

/-- The coordinate of an external module. -/
structure ModuleId where
  group : String
  name : String
  version : String
deriving DecidableEq, Repr, Inhabited

/-- The name of the build at the root of a build tree. -/
def rootBuild : String := ":"

/-- A project of a build; `path` names the project within `build`. -/
structure ProjectId where
  build : String
  path : String
deriving DecidableEq, Repr, Inhabited

namespace ModuleId

/-- The parts of a coordinate, in the order in which they are written and compared. -/
def parts (id : ModuleId) : List String := [id.group, id.name, id.version]

/-- A module is shown as `group:name:version`. -/
def display (id : ModuleId) : String := s!"{id.group}:{id.name}:{id.version}"

/-- A coordinate names a module when none of its parts is blank. -/
def Named (id : ModuleId) : Prop :=
  Text.isBlank id.group = false ∧ Text.isBlank id.name = false ∧ Text.isBlank id.version = false

instance : DecidablePred Named := fun _ => inferInstanceAs (Decidable (_ ∧ _))

instance : ToString ModuleId := ⟨display⟩

/-- A module is told by its parts. -/
theorem parts_injective : Function.Injective parts := by
  rintro ⟨g, n, v⟩ ⟨g', n', v'⟩ h
  simpa [parts] using h

end ModuleId

namespace ProjectId

/-- The parts of a project id, in the order in which they are written and compared. -/
def parts (id : ProjectId) : List String := [id.build, id.path]

/-- A project is shown by its path; the root build is left out, another build stands before it. -/
def display (id : ProjectId) : String :=
  if id.build = rootBuild then s!"project {id.path}" else s!"project {id.build}{id.path}"

/-- A project id names a project when neither its build nor its path is blank. -/
def Named (id : ProjectId) : Prop := Text.isBlank id.build = false ∧ Text.isBlank id.path = false

instance : DecidablePred Named := fun _ => inferInstanceAs (Decidable (_ ∧ _))

instance : ToString ProjectId := ⟨display⟩

/-- A project is told by its parts. -/
theorem parts_injective : Function.Injective parts := by
  rintro ⟨b, p⟩ ⟨b', p'⟩ h
  simpa [parts] using h

end ProjectId

/-! ## Components -/

/-- The component that resolution selected for a request. -/
inductive ComponentId where
  /-- An external module. -/
  | module (id : ModuleId)
  /-- A project of the root build or of an included one. -/
  | project (id : ProjectId)
deriving DecidableEq, Repr, Inhabited

namespace ComponentId

/-- The position of a kind of component among the kinds: modules, then projects. -/
def variant : ComponentId → Nat
  | .module _ => 0
  | .project _ => 1

/-- The parts of the module or project. -/
def parts : ComponentId → List String
  | .module id => id.parts
  | .project id => id.parts

/-- A component is shown like its module or project. -/
def display : ComponentId → String
  | .module id => id.display
  | .project id => id.display

/-- A component is named when its module or project is. -/
def Named : ComponentId → Prop
  | .module id => id.Named
  | .project id => id.Named

instance : DecidablePred Named
  | .module id => inferInstanceAs (Decidable id.Named)
  | .project id => inferInstanceAs (Decidable id.Named)

instance : ToString ComponentId := ⟨display⟩

/-- Modules come before projects; within a kind the parts decide, from the first on. -/
instance : Ord ComponentId := ⟨compareLex (compareOn variant) (compareOn parts)⟩

instance : TransOrd ComponentId :=
  inferInstanceAs (TransCmp (compareLex (compareOn variant) (compareOn parts)))

/-- A component is told by its kind and its parts. -/
theorem eq_of_variant_parts {a b : ComponentId} (hv : a.variant = b.variant)
    (hp : a.parts = b.parts) : a = b := by
  cases a <;> cases b <;> simp only [variant, parts] at hv hp
  · exact congrArg _ (ModuleId.parts_injective hp)
  · simp at hv
  · simp at hv
  · exact congrArg _ (ProjectId.parts_injective hp)

instance : LawfulEqOrd ComponentId where
  eq_of_compare {a b} h := by
    have h' : compareLex (compareOn variant) (compareOn parts) a b = .eq := h
    simp only [compareLex_eq_eq, compareOn, Std.compare_eq_iff_eq] at h'
    exact eq_of_variant_parts h'.1 h'.2

end ComponentId

/-! ## Node keys -/

/-- A component within one configuration: the identity of a resolved node. -/
structure NodeKey where
  component : ComponentId
  configuration : String
deriving DecidableEq, Repr, Inhabited

namespace NodeKey

/-- A key is shown as its component, with the configuration in parentheses. -/
def display (key : NodeKey) : String := s!"{key.component} ({key.configuration})"

/-- A key is named when its component is and its configuration is not blank. -/
def Named (key : NodeKey) : Prop :=
  key.component.Named ∧ Text.isBlank key.configuration = false

instance : DecidablePred Named := fun _ => inferInstanceAs (Decidable (_ ∧ _))

instance : ToString NodeKey := ⟨display⟩

/-- Keys are ordered by component, then by configuration. -/
instance : Ord NodeKey := ⟨compareLex (compareOn component) (compareOn configuration)⟩

instance : TransOrd NodeKey :=
  inferInstanceAs (TransCmp (compareLex (compareOn component) (compareOn configuration)))

instance : LawfulEqOrd NodeKey where
  eq_of_compare {a b} h := by
    have h' : compareLex (compareOn component) (compareOn configuration) a b = .eq := h
    simp only [compareLex_eq_eq, compareOn, Std.compare_eq_iff_eq] at h'
    cases a
    cases b
    simp_all

end NodeKey

end ResolutionLog
