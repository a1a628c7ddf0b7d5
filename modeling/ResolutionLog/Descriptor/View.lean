import ResolutionLog.Descriptor.Hierarchy
import ResolutionLog.Text.Visible

/-! # Views of configurations

A component with its descriptor answers questions about its configurations: what their hierarchies
are, and which dependencies, excludes and artifacts they see. The answers are kept, so that a
configuration is the same whenever it is asked for. -/

namespace ResolutionLog

open Std

/-! ## Views -/

/-- What a configuration of a component sees. -/
structure ConfigurationView where
  component : ComponentId
  name : String
  /-- The configuration and everything that it extends. -/
  hierarchy : NameSet
  transitive : Bool
  visible : Bool
  /-- The dependencies of the component that are for this configuration. -/
  dependencies : List Dependency
  /-- The exclude rules of the component that count in this configuration. -/
  excludes : List ExcludeRule
  /-- The artifacts of all configurations in the hierarchy. -/
  artifacts : ArtifactSet
deriving DecidableEq

/-- The view of a declared configuration with this hierarchy. -/
def Descriptor.view (d : Descriptor) (component : ComponentId) (artifacts : DeclaredArtifacts)
    (c : Configuration) (hierarchy : NameSet) : ConfigurationView where
  component
  name := c.name
  hierarchy
  transitive := c.transitive
  visible := c.visible
  dependencies := d.dependencies.filter fun dependency => dependency.includedIn c.name hierarchy
  excludes := excludesInScope d.excludes hierarchy
  artifacts := artifacts.published hierarchy

/-! ## Components that keep their answers -/

/-- A component with what it declares and with the answers that it has given. -/
structure ComponentMetadata where
  id : ComponentId
  descriptor : Descriptor
  artifacts : DeclaredArtifacts
  /-- The hierarchies found so far. -/
  hierarchies : HierarchyTable
  /-- The views found so far. -/
  views : ExtTreeMap String ConfigurationView
deriving DecidableEq

namespace ComponentMetadata

/-- A component that has not been asked anything. -/
def fresh (id : ComponentId) (descriptor : Descriptor) (artifacts : DeclaredArtifacts) :
    ComponentMetadata :=
  ⟨id, descriptor, artifacts, ∅, ∅⟩

/-- The hierarchy of a name, whether it is declared or not. -/
def hierarchy (m : ComponentMetadata) (name : String) : NameSet × ComponentMetadata :=
  let (found, hierarchies) := m.descriptor.hierarchy name m.hierarchies
  (found, { m with hierarchies })

/-- The configuration with this name, if it is declared. -/
def configuration? (m : ComponentMetadata) (name : String) :
    Option ConfigurationView × ComponentMetadata :=
  match m.views[name]? with
  | some view => (some view, m)
  | none =>
    match m.descriptor.configuration? name with
    | none => (none, m)
    | some c =>
      let (found, m) := m.hierarchy name
      let view := m.descriptor.view m.id m.artifacts c found
      (some view, { m with views := m.views.insert name view })

/-- A kept view is the answer, and nothing changes. -/
theorem configuration?_of_kept {m : ComponentMetadata} {name : String} {view : ConfigurationView}
    (h : m.views[name]? = some view) : m.configuration? name = (some view, m) := by
  simp [configuration?, h]

end ComponentMetadata

/-! ## Diagnosis -/

/-- All parts of a component id by name, for diagnosis. -/
def ComponentId.describe : ComponentId → String
  | .module id =>
    s!"Module(ModuleVersionId \x7b group: {Text.quoted id.group}, module: {Text.quoted id.name}, " ++
      s!"version: {Text.quoted id.version} \x7d)"
  | .project id =>
    s!"Project(ProjectComponentId \x7b build: {Text.quoted id.build}, " ++
      s!"path: {Text.quoted id.path} \x7d)"

/-- The visible state of a component, for diagnosis. -/
def ComponentMetadata.describe (m : ComponentMetadata) : String :=
  s!"ComponentMetadata \x7b id: {m.id.describe}, .. \x7d"

/-- The visible state of a configuration, for diagnosis. -/
def ConfigurationView.describe (v : ConfigurationView) : String :=
  let listed := ", ".intercalate (v.hierarchy.toList.map Text.quoted)
  s!"ConfigurationMetadata \x7b component: {v.component.describe}, name: {Text.quoted v.name}, " ++
    s!"hierarchy: \x7b{listed}\x7d, transitive: {v.transitive}, visible: {v.visible}, .. \x7d"

end ResolutionLog
