import ResolutionLog.Descriptor.Dependency
import Std.Data.ExtTreeMap

/-! # Module descriptors

What a module declares: its configurations, which may extend one another, its dependencies, its exclude
rules, and the artifacts of its configurations. -/

namespace ResolutionLog

open Std

/-- A configuration as a module declares it. -/
structure Configuration where
  name : String
  /-- The configurations that it extends. -/
  parents : List String
  transitive : Bool
  visible : Bool
deriving DecidableEq, Repr

/-- A configuration with this name. -/
def Configuration.checked (name : String) (parents : List String) (transitive visible : Bool) :
    Except LogError Configuration := do
  return ⟨← requireText "configuration name" name, parents, transitive, visible⟩

/-- The configurations, dependencies and exclude rules of a module. -/
structure Descriptor where
  /-- The configurations by name. -/
  configurations : ExtTreeMap String Configuration
  dependencies : List Dependency
  excludes : List ExcludeRule
deriving DecidableEq

namespace Descriptor

/-- A descriptor of lists of declarations: of several configurations of one name the last counts. -/
def ofLists (configurations : List Configuration) (dependencies : List Dependency)
    (excludes : List ExcludeRule) : Descriptor :=
  ⟨configurations.foldl (fun table c => table.insert c.name c) ∅, dependencies, excludes⟩

/-- The configuration with this name, if the module declares one. -/
def configuration? (d : Descriptor) (name : String) : Option Configuration := d.configurations[name]?

/-- The names of the configurations, in order. -/
def names (d : Descriptor) : NameSet := .ofList d.configurations.keys

/-- The configurations that a name extends; an undeclared name extends nothing. -/
def parents (d : Descriptor) (name : String) : List String :=
  ((d.configuration? name).map Configuration.parents).getD []

/-- The names of a descriptor are those of its configurations. -/
@[simp] theorem mem_names {d : Descriptor} {name : String} :
    name ∈ d.names ↔ (d.configuration? name).isSome = true := by
  simp [names, configuration?]

/-- Only a declared name extends something. -/
theorem mem_names_of_mem_parents {d : Descriptor} {name parent : String}
    (h : parent ∈ d.parents name) : name ∈ d.names := by
  rw [mem_names]
  cases hc : d.configuration? name with
  | none => simp [parents, hc] at h
  | some c => rfl

end Descriptor

/-- The artifacts of each configuration name. -/
abbrev DeclaredArtifacts := ExtTreeMap String ArtifactSet

namespace DeclaredArtifacts

/-- The artifacts declared for one name. -/
def of (a : DeclaredArtifacts) (name : String) : ArtifactSet := a[name]?.getD ∅

/-- Declare artifacts for a name, besides those that it already has. -/
def declare (a : DeclaredArtifacts) (name : String) (set : ArtifactSet) : DeclaredArtifacts :=
  a.insert name (of a name ∪ set)

/-- The artifacts declared for any name of a hierarchy. -/
def published (a : DeclaredArtifacts) (hierarchy : NameSet) : ArtifactSet :=
  hierarchy.toList.foldl (fun all name => all ∪ of a name) ∅

/-- Declarations add up. -/
theorem of_declare (a : DeclaredArtifacts) (name other : String) (set : ArtifactSet) :
    of (a.declare name set) other = if name = other then of a other ∪ set else of a other := by
  simp only [of, declare, ExtTreeMap.getElem?_insert, LawfulEqCmp.compare_eq_iff_eq]
  split
  · next h => simp [h]
  · rfl

end DeclaredArtifacts

end ResolutionLog
