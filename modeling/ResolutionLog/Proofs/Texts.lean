import ResolutionLog.Fixture.Parse
import ResolutionLog.Proofs.ExactRequests

/-! # What the texts of a fixture name

A fixture names modules and requests by texts. A coordinate is three parts with colons between them; a text that starts
with a colon is a path, and a library of the path stands behind the first at sign.

`Selector.WrittenAs` says which text a request is written as, without saying how texts are taken apart, and
`Selector.parse_eq_ok_iff` that just these texts are read. Main statement: `identifiers_of_text`. -/

namespace ResolutionLog

/-! ## Coordinates -/

/-- **A text is a coordinate** when it has three parts with colons between them, none of which is blank or has a colon
in it. -/
def IsCoordinate (text : String) : Prop :=
  ∃ group name version, text = group ++ ":" ++ name ++ ":" ++ version ∧
    ∀ part ∈ [group, name, version], ':' ∉ part.toList ∧ Text.isBlank part = false

namespace ModuleId

/-- A coordinate names a module when none of its parts is blank. -/
theorem named_iff {id : ModuleId} : id.Named ↔ ∀ part ∈ id.parts, Text.isBlank part = false := by
  simp [Named, parts]

/-- A module is shown as its parts with colons between them. -/
theorem display_eq (id : ModuleId) : id.display = id.group ++ ":" ++ id.name ++ ":" ++ id.version := rfl

/-- A text is taken apart into the parts of a module when the module is shown as this text and has no colons. -/
theorem splitAtEach_eq_parts_iff {text : String} {id : ModuleId} :
    Text.splitAtEach ':' text = id.parts ↔ text = id.display ∧ ∀ part ∈ id.parts, ':' ∉ part.toList := by
  have hjoined : text.toList = [':'].intercalate (id.parts.map String.toList) ↔ text = id.display := by
    rw [← String.toList_inj, display_eq]
    simp [parts, List.intercalate_cons_cons]
  have hne : id.parts ≠ [] := List.cons_ne_nil _ _
  rw [Text.splitAtEach_eq_iff hne, hjoined]

/-- **A module is read** from the text that it is shown as, if this shows its parts. -/
theorem parse_eq_ok_iff {text : String} {id : ModuleId} :
    parse text = .ok id ↔ text = id.display ∧ (∀ part ∈ id.parts, ':' ∉ part.toList) ∧ id.Named := by
  rw [← and_assoc, ← splitAtEach_eq_parts_iff, parse]
  constructor
  · intro h
    split at h
    · next hsplit =>
      obtain ⟨rfl, hnamed⟩ := checked_eq_ok_iff.1 (FixtureError.ofLog_eq_ok_iff.1 h)
      exact ⟨hsplit, hnamed⟩
    · cases h
  · rintro ⟨hsplit, hnamed⟩
    rw [hsplit, parts]
    exact FixtureError.ofLog_eq_ok_iff.2 (checked_eq_ok_iff.2 ⟨rfl, hnamed⟩)

/-- A text from which a module is read is a coordinate. -/
theorem exists_parse_eq_ok_iff {text : String} : (∃ id, parse text = .ok id) ↔ IsCoordinate text := by
  simp only [parse_eq_ok_iff, named_iff, IsCoordinate, ← forall₂_and]
  constructor
  · rintro ⟨⟨group, name, version⟩, htext, hparts⟩
    exact ⟨group, name, version, htext, hparts⟩
  · rintro ⟨group, name, version, htext, hparts⟩
    exact ⟨⟨group, name, version⟩, htext, hparts⟩

end ModuleId

/-! ## Paths -/

/-- A path is a text that starts with a colon. -/
theorem isPath_iff {text : String} : isPath text = true ↔ ∃ rest, text.toList = ':' :: rest := by
  rw [isPath, decide_eq_true_iff, List.head?_eq_some_iff]

/-- What stands behind an at sign does not count for whether a text is a path. -/
theorem isPath_append_iff {path name : String} : isPath (path ++ "@" ++ name) = true ↔ isPath path = true := by
  simp only [isPath, decide_eq_true_iff, String.toList_append, List.append_assoc]
  cases path.toList with
  | nil => simp -- the text begins with the at sign, and neither is a path
  | cons c rest => simp

/-- A path is not blank, since a colon is not. -/
theorem isBlank_of_isPath {path : String} (h : isPath path = true) : Text.isBlank path = false := by
  obtain ⟨rest, hpath⟩ := isPath_iff.1 h
  rw [Text.isBlank, hpath, List.all_cons, Bool.and_eq_false_iff]
  exact .inl (by decide)

/-- A coordinate is no path, for its first part does not begin with a colon. -/
theorem isPath_coordinate {group : String} (plain : ':' ∉ group.toList) (named : Text.isBlank group = false)
    (name version : String) : isPath (group ++ ":" ++ name ++ ":" ++ version) = false := by
  rw [Bool.eq_false_iff]
  intro h
  obtain ⟨rest, hrest⟩ := isPath_iff.1 h
  simp only [String.toList_append, List.append_assoc] at hrest
  cases hchars : group.toList with
  | nil =>
    rw [Text.isBlank, hchars, List.all_nil] at named
    cases named
  | cons c chars =>
    rw [hchars] at hrest plain
    obtain ⟨rfl, -⟩ := List.cons.inj hrest
    exact plain List.mem_cons_self

/-! ## Requests -/

namespace Selector

/-- **How a request is written.** -/
inductive WrittenAs : Selector → String → Prop where
  /-- A project is written as its path, which has no library in it. -/
  | build {path : String} (starts : isPath path = true) (plain : '@' ∉ path.toList) : WrittenAs (.build path) path
  /-- A library is written behind the first at sign. -/
  | library {path name : String} (starts : isPath path = true) (plain : '@' ∉ path.toList)
    (named : Text.isBlank name = false) : WrittenAs (.library path (some name) none) (path ++ "@" ++ name)
  /-- A module is written as its coordinate. -/
  | module {group name version : String} (plain : ∀ part ∈ [group, name, version], ':' ∉ part.toList)
    (named : ∀ part ∈ [group, name, version], Text.isBlank part = false) :
    WrittenAs (.module group name ⟨version⟩) (group ++ ":" ++ name ++ ":" ++ version)

/-- A request for a project is named when its path is not blank. -/
theorem named_build_iff {path : String} : (Selector.build path).Named ↔ Text.isBlank path = false := by
  simp [Named, parts]

/-- A request for a library is named when neither its path nor its name is blank. -/
theorem named_library_iff {path name : String} :
    (Selector.library path (some name) none).Named ↔ Text.isBlank path = false ∧ Text.isBlank name = false := by
  simp [Named, parts]

/-- A request for a module is named when none of its parts is blank. -/
theorem named_module_iff {group name version : String} :
    (Selector.module group name ⟨version⟩).Named ↔ ∀ part ∈ [group, name, version], Text.isBlank part = false := by
  simp [Named, parts]

/-- **A request is read** from the texts that it is written as, and from no others. -/
theorem parse_eq_ok_iff {text : String} {s : Selector} : parse text = .ok s ↔ s.WrittenAs text := by
  have hmark : "@".toList = ['@'] := rfl
  unfold parse
  constructor
  · intro h
    -- the cases are the ways in which `parse` takes a text apart, and each but the last is one of writing it
    split at h
    · next hpath =>
      split at h
      · next path name hcut =>
        obtain ⟨rfl, hplain⟩ := (Text.splitAtFirst?_eq_some_iff hmark).1 hcut
        obtain ⟨rfl, hnamed⟩ := checkedLibrary_eq_ok_iff.1 (FixtureError.ofLog_eq_ok_iff.1 h)
        exact .library (isPath_append_iff.1 hpath) hplain (named_library_iff.1 hnamed).2
      · next hcut =>
        obtain ⟨rfl, -⟩ := checkedBuild_eq_ok_iff.1 (FixtureError.ofLog_eq_ok_iff.1 h)
        exact .build hpath ((Text.splitAtFirst?_eq_none_iff hmark).1 hcut)
    · split at h
      · next group name version hsplit =>
        obtain ⟨rfl, hplain⟩ := (@ModuleId.splitAtEach_eq_parts_iff text ⟨group, name, version⟩).1 hsplit
        obtain ⟨rfl, hnamed⟩ := checkedModule_eq_ok_iff.1 (FixtureError.ofLog_eq_ok_iff.1 h)
        exact .module hplain (named_module_iff.1 hnamed)
      · cases h
  · intro h
    cases h with
    | build starts plain =>
      rw [if_pos starts, (Text.splitAtFirst?_eq_none_iff hmark).2 plain]
      have hnamed := named_build_iff.2 (isBlank_of_isPath starts)
      exact FixtureError.ofLog_eq_ok_iff.2 (checkedBuild_eq_ok_iff.2 ⟨rfl, hnamed⟩)
    | @library path name starts plain named =>
      rw [if_pos (isPath_append_iff.2 starts), (Text.splitAtFirst?_eq_some_iff hmark).2 ⟨rfl, plain⟩]
      have hnamed := named_library_iff.2 ⟨isBlank_of_isPath starts, named⟩
      exact FixtureError.ofLog_eq_ok_iff.2 (checkedLibrary_eq_ok_iff.2 ⟨rfl, hnamed⟩)
    | @module group name version plain named =>
      have hpath := isPath_coordinate (plain _ List.mem_cons_self) (named _ List.mem_cons_self) name version
      have hsplit := (@ModuleId.splitAtEach_eq_parts_iff _ ⟨group, name, version⟩).2 ⟨rfl, plain⟩
      rw [if_neg (Bool.eq_false_iff.1 hpath), ← ModuleId.display_eq ⟨group, name, version⟩, hsplit]
      exact FixtureError.ofLog_eq_ok_iff.2 (checkedModule_eq_ok_iff.2 ⟨rfl, named_module_iff.2 named⟩)

/-- A request is written in one way. -/
theorem WrittenAs.unique {s : Selector} {text text' : String} (h : s.WrittenAs text) (h' : s.WrittenAs text') :
    text = text' := by
  cases h with
  | build => cases h' with | build => rfl
  | library => cases h' with | library => rfl
  | module => cases h' with | module => rfl

/-- A requested module is shown as it is written. -/
theorem WrittenAs.display_eq {group name text : String} {version : VersionConstraint}
    (h : (Selector.module group name version).WrittenAs text) :
    (Selector.module group name version).display = text := by
  cases h with
  | module => rfl

/-- **Which texts are requests**: paths, alone or with a library that is not blank, and coordinates. -/
theorem exists_writtenAs_iff {text : String} :
    (∃ s : Selector, s.WrittenAs text) ↔
      isPath text = true ∧ ('@' ∉ text.toList ∨
        ∃ path name, text = path ++ "@" ++ name ∧ '@' ∉ path.toList ∧ Text.isBlank name = false) ∨
      isPath text = false ∧ IsCoordinate text := by
  constructor
  · rintro ⟨s, h⟩
    cases h with
    | build starts plain => exact .inl ⟨starts, .inl plain⟩
    | library starts plain named => exact .inl ⟨isPath_append_iff.2 starts, .inr ⟨_, _, rfl, plain, named⟩⟩
    | @module group name version plain named =>
      have hpath := isPath_coordinate (plain _ List.mem_cons_self) (named _ List.mem_cons_self) name version
      exact .inr ⟨hpath, group, name, version, rfl, fun part hm => ⟨plain part hm, named part hm⟩⟩
  · rintro (⟨hpath, hplain | ⟨path, name, rfl, hplain, hnamed⟩⟩ | ⟨-, group, name, version, rfl, hparts⟩)
    · exact ⟨_, .build hpath hplain⟩
    · exact ⟨_, .library (isPath_append_iff.1 hpath) hplain hnamed⟩
    · exact ⟨_, .module (fun part hm => (hparts part hm).1) fun part hm => (hparts part hm).2⟩

end Selector

/-! ## Texts and what they name -/

/-- **What texts name**: a request is read from a text that starts with a colon, if there is no at sign in it or what
stands behind the first one is not blank, and from any other text just if it is a coordinate. Different texts are read
as different requests, and a request for a module is shown as its text. A module is read just from the coordinates, and
is shown as its text. A module is read again from what it is shown as if the constructor makes it and no part of it has
a colon in it, and only then. -/
theorem identifiers_of_text :
    (∀ text, (∃ s, Selector.parse text = .ok s) ↔
      isPath text = true ∧ ('@' ∉ text.toList ∨
        ∃ path name, text = path ++ "@" ++ name ∧ '@' ∉ path.toList ∧ Text.isBlank name = false) ∨
      isPath text = false ∧ IsCoordinate text) ∧
    (∀ text text' s, Selector.parse text = .ok s → Selector.parse text' = .ok s → text = text') ∧
    (∀ text group name version, Selector.parse text = .ok (.module group name version) →
      (Selector.module group name version).display = text) ∧
    (∀ text, (∃ id, ModuleId.parse text = .ok id) ↔ IsCoordinate text) ∧
    (∀ text id, ModuleId.parse text = .ok id → id.display = text) ∧
    ∀ id, ModuleId.parse id.display = .ok id ↔
      (ComponentId.module id).Made ∧ ∀ part ∈ id.parts, ':' ∉ part.toList := by
  refine ⟨fun text => ?_, fun text text' s h h' => ?_, fun text group name version h => ?_, fun text => ?_,
    fun text id h => ?_, fun id => ?_⟩
  · simp only [Selector.parse_eq_ok_iff, Selector.exists_writtenAs_iff]
  · exact (Selector.parse_eq_ok_iff.1 h).unique (Selector.parse_eq_ok_iff.1 h')
  · exact (Selector.parse_eq_ok_iff.1 h).display_eq
  · exact ModuleId.exists_parse_eq_ok_iff
  · exact (ModuleId.parse_eq_ok_iff.1 h).1.symm
  · have hmade : (ComponentId.module id).Made ↔ id.Named := ComponentId.made_iff_named
    rw [ModuleId.parse_eq_ok_iff, hmade, and_iff_right rfl, and_comm]

/-- A library with an at sign in its name, a version range, and a module with blanks inside its parts. -/
theorem identifiers_of_text_sample :
    (∃ s, Selector.parse ":core@api@2" = .ok s) ∧
      (Selector.module "org" "lib" ⟨"1.+"⟩).display = "org:lib:1.+" ∧
      ModuleId.parse (ModuleId.display ⟨"org", " lib", "1 0"⟩) = .ok ⟨"org", " lib", "1 0"⟩ := by
  obtain ⟨haccepted, -, hshown, -, -, hback⟩ := identifiers_of_text
  have hlibrary : '@' ∉ ":core".toList ∧ Text.isBlank "api@2" = false := by decide +kernel
  have hmade : (ComponentId.module ⟨"org", " lib", "1 0"⟩).Made := ComponentId.made_iff_named.2 (by decide +kernel)
  refine ⟨(haccepted _).2 (.inl ⟨by decide +kernel, .inr ⟨":core", "api@2", by decide +kernel, hlibrary⟩⟩), ?_, ?_⟩
  · exact hshown "org:lib:1.+" _ _ _ (by decide +kernel)
  · exact (hback _).2 ⟨hmade, by decide +kernel⟩

end ResolutionLog
