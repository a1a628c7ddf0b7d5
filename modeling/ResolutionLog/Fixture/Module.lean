import ResolutionLog.Fixture.Parse
import ResolutionLog.Report.Configuration

/-! # Module fixtures

A module fixture describes what a module declares: its configurations, dependencies, exclude rules and
artifacts. `ModuleFixture.metadata` makes the component that it describes, and `ModuleFixture.inspect` reports on one
of its configurations. -/

namespace ResolutionLog

open Std

/-! ## What a fixture says -/

/-- A configuration. -/
structure ConfigurationFixture where
  name : String
  parents : List String
  transitive : Bool
  visible : Bool
deriving DecidableEq, Repr

/-- An exclude rule. -/
structure ExcludeFixture where
  group : String
  name : String
  configurations : List String
deriving DecidableEq, Repr

/-- A dependency. -/
structure DependencyFixture where
  requested : String
  mapping : String
  files : List String
  excludes : List ExcludeFixture
  transitive : Bool
  changing : Bool
  force : Bool
deriving DecidableEq, Repr

/-- The files of a configuration. -/
structure ArtifactsFixture where
  configuration : String
  files : List String
deriving DecidableEq, Repr

/-- A module. -/
structure ModuleFixture where
  id : String
  configurations : List ConfigurationFixture
  dependencies : List DependencyFixture
  excludes : List ExcludeFixture
  artifacts : List ArtifactsFixture
deriving DecidableEq, Repr

/-! ## How it is written -/

/-- The form of a configuration. -/
def ConfigurationFixture.form : Form ConfigurationFixture where
  name := "ConfigurationFixture"
  blank := ⟨"", [], true, true⟩
  fields :=
    [.make "name" .required readText fun c name => { c with name },
      .make "extends" .defaulted (readList readText) fun c parents => { c with parents },
      .make "transitive" .defaulted readFlag fun c transitive => { c with transitive },
      .make "visible" .defaulted readFlag fun c visible => { c with visible }]

/-- The form of an exclude rule. -/
def ExcludeFixture.form : Form ExcludeFixture where
  name := "ExcludeFixture"
  blank := ⟨wildcard, wildcard, []⟩
  fields :=
    [.make "group" .defaulted readText fun e group => { e with group },
      .make "module" .defaulted readText fun e name => { e with name },
      .make "configurations" .required (readList readText)
        fun e configurations => { e with configurations }]

/-- The form of a dependency. -/
def DependencyFixture.form : Form DependencyFixture where
  name := "DependencyFixture"
  blank := ⟨"", "", [], [], true, false, false⟩
  fields :=
    [.make "requested" .required readText fun d requested => { d with requested },
      .make "mapping" .required readText fun d mapping => { d with mapping },
      .make "artifacts" .defaulted (readList readText) fun d files => { d with files },
      .make "exclude" .defaulted (readList ExcludeFixture.form.read)
        fun d excludes => { d with excludes },
      .make "transitive" .defaulted readFlag fun d transitive => { d with transitive },
      .make "changing" .defaulted readFlag fun d changing => { d with changing },
      .make "force" .defaulted readFlag fun d force => { d with force }]

/-- The form of the files of a configuration. -/
def ArtifactsFixture.form : Form ArtifactsFixture where
  name := "ArtifactsFixture"
  blank := ⟨"", []⟩
  fields :=
    [.make "configuration" .required readText fun a configuration => { a with configuration },
      .make "files" .required (readList readText) fun a files => { a with files }]

/-- The form of a module. -/
def ModuleFixture.form : Form ModuleFixture where
  name := "ModuleFixture"
  blank := ⟨"", [], [], [], []⟩
  fields :=
    [.make "id" .required readText fun m id => { m with id },
      .make "configuration" .defaulted (readList ConfigurationFixture.form.read)
        fun m configurations => { m with configurations },
      .make "dependency" .defaulted (readList DependencyFixture.form.read)
        fun m dependencies => { m with dependencies },
      .make "exclude" .defaulted (readList ExcludeFixture.form.read)
        fun m excludes => { m with excludes },
      .make "artifacts" .defaulted (readList ArtifactsFixture.form.read)
        fun m artifacts => { m with artifacts }]

/-- The fixture that a document says. -/
def ModuleFixture.parse (text : String) : Except FixtureError ModuleFixture :=
  ModuleFixture.form.parse .moduleFixture text

/-! ## What it describes -/

/-- The configuration that a fixture describes. -/
def ConfigurationFixture.configuration (c : ConfigurationFixture) :
    Except FixtureError Configuration :=
  FixtureError.ofLog (Configuration.checked c.name c.parents c.transitive c.visible)

/-- The rule that a fixture describes. -/
def ExcludeFixture.rule (e : ExcludeFixture) : Except FixtureError ExcludeRule :=
  FixtureError.ofLog (ExcludeRule.checked e.group e.name e.configurations)

/-- The dependency that a fixture describes. -/
def DependencyFixture.dependency (d : DependencyFixture) : Except FixtureError Dependency := do
  let artifacts ← FixtureError.ofLog (Artifact.ofFileNames d.files)
  let excludes ← d.excludes.mapM ExcludeFixture.rule
  let requested ← Selector.parse d.requested
  let mapping ← FixtureError.ofLog (ConfigurationMapping.parse d.mapping)
  return ⟨requested, mapping, artifacts, excludes, d.transitive, d.changing, d.force⟩

/-- Declare the files of a configuration. -/
def ArtifactsFixture.declare (declared : DeclaredArtifacts) (a : ArtifactsFixture) :
    Except FixtureError DeclaredArtifacts := do
  let set ← FixtureError.ofLog (ArtifactSet.ofFileNames a.files)
  return declared.declare a.configuration set

/-- The component that a fixture describes. Its id is looked at last. -/
def ModuleFixture.metadata (m : ModuleFixture) : Except FixtureError ComponentMetadata := do
  let configurations ← m.configurations.mapM ConfigurationFixture.configuration
  let dependencies ← m.dependencies.mapM DependencyFixture.dependency
  let excludes ← m.excludes.mapM ExcludeFixture.rule
  let artifacts ← m.artifacts.foldlM ArtifactsFixture.declare ∅
  let id ← ComponentId.parse m.id
  return .fresh id (.ofLists configurations dependencies excludes) artifacts

/-- The report on a configuration of the module that a fixture describes. -/
def ModuleFixture.inspect (m : ModuleFixture) (name : String) :
    Except FixtureError ConfigurationReport := do
  let metadata ← m.metadata
  match (metadata.configuration? name).1 with
  | some view => return view.report
  | none => throw (.undeclaredConfiguration metadata.id name)

end ResolutionLog
