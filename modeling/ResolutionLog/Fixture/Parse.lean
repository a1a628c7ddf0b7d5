import ResolutionLog.Fixture.Form
import ResolutionLog.Identifier
import ResolutionLog.Toml.Document

/-! # Reading fixtures

Fixtures describe resolutions and modules in writing. They are documents in TOML, as settings are, each of the form
of its kind. In them a module is written as `group:name:version`, and a request is written like a module, as a path
that starts with a colon, or as such a path with a library behind an at sign.

What can go wrong with a fixture comes on top of what can go wrong with a recorded resolution. -/

namespace ResolutionLog

/-! ## Errors -/

/-- The documents that are read. -/
inductive DocumentKind where
  | resultFixture
  | moduleFixture
  | settings
deriving DecidableEq, Repr

/-- How messages name a document. -/
def DocumentKind.display : DocumentKind → String
  | .resultFixture => "result fixture"
  | .moduleFixture => "module fixture"
  | .settings => "config"

instance : ToString DocumentKind := ⟨DocumentKind.display⟩

/-- Why a text is no document of its kind. -/
inductive DocumentFault where
  /-- It is not written in TOML. -/
  | toml (fault : Toml.Fault)
  /-- It says something else. -/
  | form (fault : FormFault)
deriving DecidableEq, Repr

/-- The wording of a fault. -/
def DocumentFault.message : DocumentFault → String
  | .toml fault => s!"TOML parse error: {fault.message}"
  | .form fault => fault.message

/-- What can go wrong with a fixture. -/
inductive FixtureError where
  /-- An identifier, the recording or the reading of it failed. -/
  | log (error : LogError)
  /-- A text is no module id. -/
  | badModuleId (text : String)
  /-- A text is no selector. -/
  | badSelector (text : String)
  /-- A node is neither a module nor a project, or is both. -/
  | ambiguousNode (name : String)
  /-- No node has this name. -/
  | unknownNode (name : String)
  /-- A module declares no configuration of this name. -/
  | undeclaredConfiguration (component : ComponentId) (name : String)
  /-- A file is longer than a fixture may be. -/
  | oversizedFile (size limit : Nat)
  /-- A value is not of the form of its kind. -/
  | form (fault : FormFault)
  /-- A text is no document of its kind. -/
  | document (kind : DocumentKind) (fault : DocumentFault)
deriving DecidableEq, Repr

namespace FixtureError

/-- What a fixture error says beyond the kind of error, unless it is one of a recorded resolution. -/
def detail : FixtureError → String
  | .log error => error.message
  | .badModuleId text => s!"Expected group:module:version, found '{text}'"
  | .badSelector text => s!"Unrecognized selector '{text}'"
  | .ambiguousNode name => s!"Node '{name}' needs exactly one of module or project"
  | .unknownNode name => s!"Unknown node name '{name}'"
  | .undeclaredConfiguration component name =>
    s!"Module {component} declares no configuration '{name}'"
  | .oversizedFile size limit =>
    s!"File size {size} bytes exceeds maximum allowed {limit} bytes"
  | .form fault => fault.message
  | .document kind fault => s!"Invalid {kind}: {fault.message}"

/-- The wording of an error. -/
def message (e : FixtureError) : String :=
  match e with
  | .log error => error.message
  | e => s!"Deserialization error: {e.detail}"

/-- The result of a step of a recorded resolution. -/
def ofLog {α : Type} (r : Except LogError α) : Except FixtureError α := r.mapError .log

/-- A step of a recorded resolution succeeds for a fixture as it does by itself. -/
@[simp] theorem ofLog_eq_ok_iff {α : Type} {r : Except LogError α} {a : α} :
    ofLog r = .ok a ↔ r = .ok a := by
  cases r with
  | ok b =>
    constructor <;> intro h <;> exact congrArg _ (Except.ok.inj h)
  | error e => constructor <;> intro h <;> nomatch h

end FixtureError

/-! ## Documents -/

/-- The value of a form that a document of some kind says. -/
def Form.parse {σ : Type} (f : Form σ) (kind : DocumentKind) (text : String) :
    Except FixtureError σ :=
  match Toml.parse text with
  | .error fault => .error (.document kind (.toml fault))
  | .ok v => (f.read v.datum).mapError fun fault => .document kind (.form fault)

/-! ## Identifiers -/

/-- The module that a text writes. -/
def ModuleId.parse (text : String) : Except FixtureError ModuleId :=
  match Text.splitAtEach ':' text with
  | [group, name, version] => FixtureError.ofLog (ModuleId.checked group name version)
  | _ => .error (.badModuleId text)

/-- Whether a text starts with a colon, as paths do. -/
def isPath (text : String) : Bool := text.toList.head? = some ':'

/-- The request that a text writes. -/
def Selector.parse (text : String) : Except FixtureError Selector :=
  if isPath text then
    match Text.splitAtFirst? "@" text with
    | some (path, name) => FixtureError.ofLog (Selector.checkedLibrary path (some name) none)
    | none => FixtureError.ofLog (Selector.checkedBuild text)
  else
    match Text.splitAtEach ':' text with
    | [group, name, version] => FixtureError.ofLog (Selector.checkedModule group name version)
    | _ => .error (.badSelector text)

/-- The component that a text writes: a project of the root build if it is a path, else a module. -/
def ComponentId.parse (text : String) : Except FixtureError ComponentId :=
  if isPath text then FixtureError.ofLog (ComponentId.checkedProject rootBuild text)
  else (ModuleId.parse text).map .module

end ResolutionLog
