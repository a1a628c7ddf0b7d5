import ResolutionLog.Descriptor.View
import ResolutionLog.Report.Json

/-! # Reports on configurations

A report shows in texts what a configuration sees: its hierarchy, its dependencies with the
configurations that they draw in, its exclude rules and its artifacts. -/

namespace ResolutionLog

/-- An exclude rule. -/
structure ExcludeReport where
  group : String
  name : String
deriving DecidableEq, Repr

/-- A dependency. -/
structure DependencyReport where
  requested : String
  /-- The configurations of the target that it draws in. -/
  targets : List String
  transitive : Bool
  changing : Bool
  force : Bool
  excludes : List ExcludeReport
deriving DecidableEq, Repr

/-- A configuration. -/
structure ConfigurationReport where
  component : String
  name : String
  hierarchy : List String
  transitive : Bool
  visible : Bool
  dependencies : List DependencyReport
  excludes : List ExcludeReport
  artifacts : List String
deriving DecidableEq, Repr

/-! ## What it shows -/

/-- The report on an exclude rule. -/
def ExcludeRule.report (rule : ExcludeRule) : ExcludeReport := ⟨rule.group, rule.name⟩

/-- What a dependency draws in for a configuration: the targets of all sources in its hierarchy, each
once; if there are none, those of the configuration's own name. -/
def Dependency.targetsIn (d : Dependency) (name : String) (hierarchy : NameSet) : List String :=
  let named := d.mapping.sources.filter fun source => source ∈ hierarchy
  match (named.flatMap fun source => d.mapping.targets source name).eraseDups with
  | [] => d.mapping.targets name name
  | targets => targets

/-- The report on a dependency of a configuration. -/
def Dependency.report (d : Dependency) (name : String) (hierarchy : NameSet) : DependencyReport where
  requested := d.requested.display
  targets := d.targetsIn name hierarchy
  transitive := d.transitive
  changing := d.changing
  force := d.force
  excludes := (d.excludesFor hierarchy).map ExcludeRule.report

/-- The report on a configuration. -/
def ConfigurationView.report (v : ConfigurationView) : ConfigurationReport where
  component := v.component.display
  name := v.name
  hierarchy := v.hierarchy.toList
  transitive := v.transitive
  visible := v.visible
  dependencies := v.dependencies.map fun d => d.report v.name v.hierarchy
  excludes := v.excludes.map ExcludeRule.report
  artifacts := v.artifacts.toList.map Artifact.display

/-! ## How it is printed -/

namespace ConfigurationReport

/-- The line of a dependency. -/
def dependencyLine (d : DependencyReport) : String :=
  let listed := ", ".intercalate d.targets
  let marks := (if d.force then " (force)" else "") ++
    (if d.changing then " (changing)" else "") ++ (if d.transitive then "" else " (intransitive)")
  s!"  {d.requested} -> [{listed}]{marks}"

/-- A report for a terminal. -/
def render (r : ConfigurationReport) : String :=
  let hierarchy := ", ".intercalate r.hierarchy
  let excludes := if r.excludes.isEmpty then [] else
    "" :: "Excludes:" :: r.excludes.map fun rule => s!"  {rule.group}:{rule.name}"
  joinLines <|
    [s!"Configuration {r.name} of {r.component}", s!"Hierarchy:  {hierarchy}",
      s!"Transitive: {r.transitive}", s!"Visible:    {r.visible}"] ++
    ("" :: "Dependencies:" :: r.dependencies.map dependencyLine) ++ excludes ++
    ("" :: "Artifacts:" :: r.artifacts.map fun file => s!"  {file}")

/-- The fields of exclude rules. -/
def excludesJson (rules : List ExcludeReport) : JsonValue :=
  .list (rules.map fun rule =>
    .record [("group", .text rule.group), ("module", .text rule.name)])

/-- The fields of a dependency. -/
def dependencyJson (d : DependencyReport) : JsonValue :=
  .record
    [("requested", .text d.requested), ("targets", .texts d.targets),
      ("transitive", .flag d.transitive), ("changing", .flag d.changing),
      ("force", .flag d.force), ("excludes", excludesJson d.excludes)]

/-- A report for programs. -/
def json (r : ConfigurationReport) : JsonValue :=
  .record
    [("component", .text r.component), ("name", .text r.name), ("hierarchy", .texts r.hierarchy),
      ("transitive", .flag r.transitive), ("visible", .flag r.visible),
      ("dependencies", .list (r.dependencies.map dependencyJson)),
      ("excludes", excludesJson r.excludes), ("artifacts", .texts r.artifacts)]

end ConfigurationReport

end ResolutionLog
