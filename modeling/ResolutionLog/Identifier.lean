import ResolutionLog.Error
import ResolutionLog.Selector
import ResolutionLog.Text.Split

/-! # Making identifiers

Components, keys, artifacts and selectors that come from outside are made by the functions of this
module, which refuse blank parts. Each of them says which part is blank; of several the first counts.
The main statements say what is accepted: exactly what is `Named`. -/

namespace ResolutionLog

/-- A part of an identifier as it is, unless it is blank. -/
def requireText (part text : String) : Except LogError String :=
  if Text.isBlank text then .error (.blankIdentifier part) else .ok text

/-- A text is required not to be blank, and is not changed. -/
@[simp] theorem requireText_eq_ok_iff {part text t : String} :
    requireText part text = .ok t ↔ t = text ∧ Text.isBlank text = false := by
  unfold requireText
  split
  · next h => simp [h]
  · next h => simpa [h] using eq_comm

/-- An optional part as it is, unless it is present and blank. -/
def requireOption (part : String) : Option String → Except LogError (Option String)
  | none => .ok none
  | some text => (requireText part text).map some

/-- A text that may be missing is required not to be blank if it is there. -/
@[simp] theorem requireOption_eq_ok_iff {part : String} {o r : Option String} :
    requireOption part o = .ok r ↔ r = o ∧ ∀ text ∈ o, Text.isBlank text = false := by
  cases o with
  | none => simpa [requireOption] using eq_comm
  | some text =>
    rw [requireOption, requireText]
    split
    · next h => simp [Except.map, h]
    · next h => simpa [Except.map, h] using eq_comm

/-! ## Components and keys -/

/-- The module with these parts. -/
def ModuleId.checked (group name version : String) : Except LogError ModuleId := do
  let group ← requireText "module group" group
  let name ← requireText "module name" name
  let version ← requireText "module version" version
  return ⟨group, name, version⟩

/-- The project with this build and path. -/
def ProjectId.checked (build path : String) : Except LogError ProjectId := do
  let build ← requireText "build name" build
  let path ← requireText "project path" path
  return ⟨build, path⟩

/-- The module with these parts, as a component. -/
def ComponentId.checkedModule (group name version : String) : Except LogError ComponentId := do
  return .module (← ModuleId.checked group name version)

/-- The project with this build and path, as a component. -/
def ComponentId.checkedProject (build path : String) : Except LogError ComponentId := do
  return .project (← ProjectId.checked build path)

/-- The key of a component within a configuration. -/
def NodeKey.checked (component : ComponentId) (configuration : String) : Except LogError NodeKey := do
  let configuration ← requireText "configuration name" configuration
  return ⟨component, configuration⟩

/-- A coordinate is accepted when it names a module. -/
theorem ModuleId.checked_eq_ok_iff {group name version : String} {id : ModuleId} :
    ModuleId.checked group name version = .ok id ↔ id = ⟨group, name, version⟩ ∧ id.Named := by
  unfold ModuleId.checked requireText
  constructor
  · intro h
    repeat' split at h
    all_goals simp_all [bind, Except.bind, pure, Except.pure]
    subst h
    simp_all [ModuleId.Named]
  · rintro ⟨rfl, hg, hn, hv⟩
    simp_all [bind, Except.bind, pure, Except.pure]

/-- A project id is accepted when it names a project. -/
theorem ProjectId.checked_eq_ok_iff {build path : String} {id : ProjectId} :
    ProjectId.checked build path = .ok id ↔ id = ⟨build, path⟩ ∧ id.Named := by
  unfold ProjectId.checked requireText
  constructor
  · intro h
    repeat' split at h
    all_goals simp_all [bind, Except.bind, pure, Except.pure]
    subst h
    simp_all [ProjectId.Named]
  · rintro ⟨rfl, hb, hp⟩
    simp_all [bind, Except.bind, pure, Except.pure]

/-! ## Artifacts -/

/-- The artifact with this name and extension, without a classifier. -/
def Artifact.checked (name extension : String) : Except LogError Artifact := do
  let name ← requireText "artifact name" name
  return ⟨name, extension, none⟩

/-- The artifact of a file: the extension is what follows the last dot, and a classifier is not told
apart from the name. -/
def Artifact.ofFileName (file : String) : Except LogError Artifact :=
  match Text.splitAtLast? '.' file with
  | some (name, extension) => Artifact.checked name extension
  | none => Artifact.checked file ""

/-- The artifacts of a list of files, in the order of the files. -/
def Artifact.ofFileNames (files : List String) : Except LogError (List Artifact) :=
  files.mapM Artifact.ofFileName

/-- The set of the artifacts of a list of files. -/
def ArtifactSet.ofFileNames (files : List String) : Except LogError ArtifactSet := do
  return Std.ExtTreeSet.ofList (← Artifact.ofFileNames files)

/-! ## Selectors -/

/-- The constraint with this text. -/
def VersionConstraint.checked (text : String) : Except LogError VersionConstraint := do
  return ⟨← requireText "version constraint" text⟩

/-- The request for a project of the same build. -/
def Selector.checkedBuild (path : String) : Except LogError Selector := do
  return .build (← requireText "project path" path)

/-- The request for a module. -/
def Selector.checkedModule (group name version : String) : Except LogError Selector := do
  let group ← requireText "module group" group
  let name ← requireText "module name" name
  let version ← VersionConstraint.checked version
  return .module group name version

/-- The request for a library, which may be absent but not blank; likewise its variant. -/
def Selector.checkedLibrary (path : String) (name variant : Option String) :
    Except LogError Selector := do
  let path ← requireText "project path" path
  let name ← requireOption "library name" name
  let variant ← requireOption "variant name" variant
  return .library path name variant

/-- A request for a project is accepted when its path is not blank. -/
theorem Selector.checkedBuild_eq_ok_iff {path : String} {s : Selector} :
    Selector.checkedBuild path = .ok s ↔ s = .build path ∧ s.Named := by
  unfold Selector.checkedBuild requireText
  constructor
  · intro h
    split at h <;> simp_all [bind, Except.bind, pure, Except.pure]
    subst h
    simp_all [Selector.Named, Selector.parts]
  · rintro ⟨rfl, h⟩
    simp_all [bind, Except.bind, pure, Except.pure, Selector.Named, Selector.parts]

/-- A request for a module is accepted when no part of it is blank. -/
theorem Selector.checkedModule_eq_ok_iff {group name version : String} {s : Selector} :
    Selector.checkedModule group name version = .ok s ↔
      s = .module group name ⟨version⟩ ∧ s.Named := by
  unfold Selector.checkedModule VersionConstraint.checked requireText
  constructor
  · intro h
    repeat' split at h
    all_goals simp_all [bind, Except.bind, pure, Except.pure]
    subst h
    simp_all [Selector.Named, Selector.parts]
  · rintro ⟨rfl, h⟩
    simp_all [bind, Except.bind, pure, Except.pure, Selector.Named, Selector.parts]

/-- A request for a library is accepted when no part that it has is blank. -/
theorem Selector.checkedLibrary_eq_ok_iff {path : String} {name variant : Option String}
    {s : Selector} : Selector.checkedLibrary path name variant = .ok s ↔
      s = .library path name variant ∧ s.Named := by
  unfold Selector.checkedLibrary
  simp only [bind, Except.bind, pure, Except.pure]
  constructor
  · intro h
    split at h
    · simp at h
    · next p hp =>
      split at h
      · simp at h
      · next n hn =>
        split at h
        · simp at h
        · next v hv =>
          rw [requireText_eq_ok_iff] at hp
          rw [requireOption_eq_ok_iff] at hn hv
          simp only [Except.ok.injEq] at h
          subst h
          simp_all [Selector.Named, Selector.parts]
  · rintro ⟨rfl, h⟩
    simp only [Selector.Named, Selector.parts, List.mem_cons, List.not_mem_nil, or_false,
      forall_eq_or_imp, forall_eq, Option.mem_some_iff] at h
    rw [(@requireText_eq_ok_iff "project path" _ _).2 ⟨rfl, h.1 _ rfl⟩]
    simp only
    rw [(@requireOption_eq_ok_iff "library name" _ _).2 ⟨rfl, h.2.1⟩]
    simp only
    rw [(@requireOption_eq_ok_iff "variant name" _ _).2 ⟨rfl, h.2.2⟩]

end ResolutionLog
