import ResolutionLog.Descriptor.Exclude
import ResolutionLog.Descriptor.Mapping

/-! # Declared dependencies

A declared dependency says what it requests, for which configurations of the declaring module and of
the target, and what it overrides. Conflict resolution makes changed copies of it. -/

namespace ResolutionLog

/-- A dependency as a module declares it. -/
structure Dependency where
  requested : Selector
  mapping : ConfigurationMapping
  /-- The artifacts to take; if there are none, those of the target configurations. -/
  artifacts : List Artifact
  excludes : List ExcludeRule
  /-- Whether the dependencies of the target are drawn in too. -/
  transitive : Bool
  /-- Whether the target may change under one version. -/
  changing : Bool
  /-- Whether the requested version wins over others. -/
  force : Bool
deriving DecidableEq

namespace Dependency

/-- A transitive dependency that overrides nothing. -/
def declare (requested : Selector) (mapping : ConfigurationMapping) : Dependency :=
  { requested, mapping, artifacts := [], excludes := [], transitive := true, changing := false,
    force := false }

/-- Whether a dependency is one of the configuration `name` with this hierarchy. -/
def includedIn (d : Dependency) (name : String) (hierarchy : NameSet) : Bool :=
  includes name hierarchy d.mapping.sources

/-- The rules of a dependency that count in a hierarchy. -/
def excludesFor (d : Dependency) (hierarchy : NameSet) : List ExcludeRule :=
  excludesInScope d.excludes hierarchy

/-- A copy that requests another target. -/
def withTarget (d : Dependency) (requested : Selector) : Dependency := { d with requested }

/-- A copy that requests another version. Only a request for a module has one; of any other the copy
is the same dependency. -/
def withRequestedVersion (d : Dependency) (version : String) : Except LogError Dependency :=
  match d.requested with
  | .module group name _ => do
    let version ← VersionConstraint.checked version
    return d.withTarget (.module group name version)
  | _ => .ok d

/-- A copy whose target may change. -/
def withChanging (d : Dependency) : Dependency := { d with changing := true }

end Dependency

end ResolutionLog
