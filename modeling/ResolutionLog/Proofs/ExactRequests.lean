import ResolutionLog.Proofs.Attempts

/-! # Which components an exact request admits

The narrowest request for a component asks for its own version, or for its own path. What it admits besides the
component comes from how requests are read (`Selector.Confused`): a version that ends in a plus sign is read as a
range, and the build of a project is not asked for. Main statement: `Selector.exact_admits`, which says what is
admitted, and for which components this is just the component. -/

namespace ResolutionLog

/-! ## Made components -/

/-- A component that one of the constructors has made. -/
inductive ComponentId.Made : ComponentId → Prop where
  | module {group name version : String} {id : ComponentId} (made : checkedModule group name version = .ok id) :
    Made id
  | project {build path : String} {id : ComponentId} (made : checkedProject build path = .ok id) : Made id

namespace ComponentId

/-- A module is made when it is named. -/
theorem checkedModule_eq_ok_iff {group name version : String} {id : ComponentId} :
    checkedModule group name version = .ok id ↔ id = .module ⟨group, name, version⟩ ∧ id.Named := by
  simp only [checkedModule, bind_eq_ok_iff, ModuleId.checked_eq_ok_iff]
  constructor
  · rintro ⟨_, ⟨rfl, hnamed⟩, h⟩
    obtain rfl := Except.ok.inj h
    exact ⟨rfl, hnamed⟩
  · rintro ⟨rfl, hnamed⟩
    exact ⟨_, ⟨rfl, hnamed⟩, rfl⟩

/-- A project is made when it is named. -/
theorem checkedProject_eq_ok_iff {build path : String} {id : ComponentId} :
    checkedProject build path = .ok id ↔ id = .project ⟨build, path⟩ ∧ id.Named := by
  simp only [checkedProject, bind_eq_ok_iff, ProjectId.checked_eq_ok_iff]
  constructor
  · rintro ⟨_, ⟨rfl, hnamed⟩, h⟩
    obtain rfl := Except.ok.inj h
    exact ⟨rfl, hnamed⟩
  · rintro ⟨rfl, hnamed⟩
    exact ⟨_, ⟨rfl, hnamed⟩, rfl⟩

/-- The constructors make just the components that are named. -/
theorem made_iff_named {id : ComponentId} : id.Made ↔ id.Named := by
  constructor
  · intro h
    cases h with
    | module made => exact (checkedModule_eq_ok_iff.1 made).2
    | project made => exact (checkedProject_eq_ok_iff.1 made).2
  · intro h
    cases id with
    | module id => exact .module (checkedModule_eq_ok_iff.2 ⟨rfl, h⟩)
    | project id => exact .project (checkedProject_eq_ok_iff.2 ⟨rfl, h⟩)

end ComponentId

/-! ## Versions -/

/-- A version that is read as a range when it is asked for. -/
def EndsInPlus (version : String) : Prop := ['+'] <:+ version.toList

namespace VersionConstraint

/-- The stem of a constraint is what stands before its last plus. -/
theorem stem?_eq_some_iff {c : VersionConstraint} {stem : List Char} :
    c.stem? = some stem ↔ c.text.toList = stem ++ ['+'] := by
  unfold stem?
  constructor
  · intro h
    split at h
    · next hlast =>
      obtain rfl := Option.some.inj h
      exact (List.dropLast_append_getLast? _ hlast).symm
    · cases h
  · intro h
    rw [h, List.getLast?_concat, if_pos rfl, List.dropLast_concat]

/-- A constraint has no stem when it does not end in a plus. -/
theorem stem?_eq_none_iff {c : VersionConstraint} : c.stem? = none ↔ ¬EndsInPlus c.text := by
  constructor
  · rintro h ⟨stem, hstem⟩
    rw [stem?_eq_some_iff.2 hstem.symm] at h
    cases h
  · intro h
    cases hstem : c.stem? with
    | none => rfl
    | some stem => exact absurd ⟨stem, (stem?_eq_some_iff.1 hstem).symm⟩ h

/-- **Which versions a constraint accepts**: its own text, and those that begin with what stands before a final plus
sign. -/
theorem accepts_iff {c : VersionConstraint} {version : String} :
    c.accepts version = true ↔
      c.text = version ∨ ∃ stem, c.text.toList = stem ++ ['+'] ∧ stem <+: version.toList := by
  unfold accepts
  cases h : c.stem? with
  | some stem =>
    have htext := stem?_eq_some_iff.1 h
    constructor
    · exact fun hprefix => .inr ⟨stem, htext, of_decide_eq_true hprefix⟩
    · rintro (rfl | ⟨other, hother, hprefix⟩)
      · exact decide_eq_true (htext ▸ List.prefix_append stem ['+'])
      · rw [htext] at hother
        obtain ⟨rfl, -⟩ := List.append_inj' hother rfl
        exact decide_eq_true hprefix
  | none =>
    have hnot := stem?_eq_none_iff.1 h
    constructor
    · exact fun heq => .inl (eq_of_beq heq)
    · rintro (rfl | ⟨stem, hstem, -⟩)
      · exact beq_self_eq_true _
      · exact absurd ⟨stem, hstem.symm⟩ hnot

end VersionConstraint

/-! ## Exact requests -/

namespace Selector

/-- **What an exact request takes for the component that it was made for.** -/
inductive Confused : ComponentId → ComponentId → Prop where
  /-- A module in a version that begins like one that ends in a plus sign. -/
  | version {group name version other : String} {stem : List Char} (text : version.toList = stem ++ ['+'])
    (begins : stem <+: other.toList) : Confused (.module ⟨group, name, version⟩) (.module ⟨group, name, other⟩)
  /-- A project with this path in any build. -/
  | build {build other path : String} : Confused (.project ⟨build, path⟩) (.project ⟨other, path⟩)

/-- The request for exactly one component admits this one and those that it is confused with. -/
theorem admits_exact_iff {a b : ComponentId} : (exact a).admits b = true ↔ a = b ∨ Confused a b := by
  -- components of different kinds are neither admitted nor confused
  cases a with
  | module a =>
    obtain ⟨group, name, version⟩ := a
    cases b with
    | module b =>
      obtain ⟨group', name', version'⟩ := b
      simp only [exact, admits, Bool.and_eq_true, beq_iff_eq, VersionConstraint.accepts_iff]
      constructor
      · rintro ⟨⟨rfl, rfl⟩, rfl | ⟨stem, htext, hbegins⟩⟩
        · exact .inl rfl
        · exact .inr (.version htext hbegins)
      · rintro (h | h)
        · cases h
          exact ⟨⟨rfl, rfl⟩, .inl rfl⟩
        · cases h with
          | version htext hbegins => exact ⟨⟨rfl, rfl⟩, .inr ⟨_, htext, hbegins⟩⟩
    | project b =>
      refine ⟨fun h => ?_, fun h => ?_⟩
      · cases h
      · rcases h with h | h <;> cases h
  | project a =>
    obtain ⟨build, path⟩ := a
    cases b with
    | module b =>
      refine ⟨fun h => ?_, fun h => ?_⟩
      · cases h
      · rcases h with h | h <;> cases h
    | project b =>
      obtain ⟨build', path'⟩ := b
      simp only [exact, admits, beq_iff_eq]
      constructor
      · rintro rfl
        exact .inr .build
      · rintro (h | h)
        · cases h
          rfl
        · cases h
          rfl

/-- A text with a digit behind it is not blank. -/
theorem isBlank_append_digit (s : String) : Text.isBlank (s ++ "0") = false := by
  rw [Text.isBlank, String.toList_append, List.all_append, Bool.and_eq_false_iff]
  exact .inr (by decide)

/-- A text differs from itself with a digit behind it. -/
theorem ne_append_digit (s : String) : s ≠ s ++ "0" := by
  intro h
  have hlength := congrArg (fun t => t.toList.length) h
  simp at hlength

/-- For a version that ends in a plus sign, and for a project, others are taken. -/
theorem exists_confused {a : ComponentId} (ha : a.Named) (h : ¬∃ id, a = .module id ∧ ¬EndsInPlus id.version) :
    ∃ b, b.Named ∧ a ≠ b ∧ Confused a b := by
  -- a digit behind the version, or behind the build, makes the other component
  cases a with
  | module a =>
    obtain ⟨group, name, version⟩ := a
    obtain ⟨hgroup, hname, -⟩ := ha
    have hplus : EndsInPlus version := not_not.1 fun hnot => h ⟨_, rfl, hnot⟩
    obtain ⟨stem, hstem⟩ := hplus
    refine ⟨.module ⟨group, name, version ++ "0"⟩, ⟨hgroup, hname, isBlank_append_digit version⟩, fun heq => ?_, ?_⟩
    · injection heq with heq
      injection heq with _ _ heq
      exact ne_append_digit version heq
    · refine .version hstem.symm ?_
      rw [String.toList_append, ← hstem, List.append_assoc]
      exact List.prefix_append _ _
  | project a =>
    obtain ⟨build, path⟩ := a
    refine ⟨.project ⟨build ++ "0", path⟩, ⟨isBlank_append_digit build, ha.2⟩, fun heq => ?_, .build⟩
    injection heq with heq
    injection heq with heq _
    exact ne_append_digit build heq

/-- **Which components an exact request admits**: the component itself, and what is taken for it. It admits only the
component itself, out of all that can be made, just for a module in a version that does not end in a plus sign. -/
theorem exact_admits {a : ComponentId} (ha : a.Made) :
    (∀ b, (exact a).admits b = true ↔ a = b ∨ Confused a b) ∧
    ((∀ b : ComponentId, b.Made → ((exact a).admits b = true ↔ a = b)) ↔
      ∃ id, a = .module id ∧ ¬EndsInPlus id.version) := by
  refine ⟨fun b => admits_exact_iff, fun h => ?_, ?_⟩
  · by_contra hnot
    obtain ⟨b, hb, hne, hconfused⟩ := exists_confused (ComponentId.made_iff_named.1 ha) hnot
    exact hne ((h b (ComponentId.made_iff_named.2 hb)).1 (admits_exact_iff.2 (.inr hconfused)))
  · rintro ⟨id, rfl, hplus⟩ b -
    rw [admits_exact_iff, or_iff_left]
    intro hconfused
    cases hconfused with
    | version htext _ => exact hplus ⟨_, htext.symm⟩

/-- A module in a version without a plus sign is the only one that is admitted; a project in another build is taken
for one of the root build. -/
theorem exact_admits_sample :
    (∀ b : ComponentId, b.Made →
      ((exact (.module ⟨"org", "core", "1.4"⟩)).admits b = true ↔ .module ⟨"org", "core", "1.4"⟩ = b)) ∧
    ¬∀ b : ComponentId, b.Made →
      ((exact (.project ⟨":", ":app"⟩)).admits b = true ↔ .project ⟨":", ":app"⟩ = b) := by
  have hmodule : (ComponentId.module ⟨"org", "core", "1.4"⟩).Made := ComponentId.made_iff_named.2 (by decide)
  have hproject : (ComponentId.project ⟨":", ":app"⟩).Made := ComponentId.made_iff_named.2 (by decide)
  have hplain : ¬EndsInPlus "1.4" := by
    unfold EndsInPlus
    decide
  refine ⟨(exact_admits hmodule).2.2 ⟨_, rfl, hplain⟩, fun h => ?_⟩
  obtain ⟨id, hid, -⟩ := (exact_admits hproject).2.1 h
  cases hid

/-- **An exact request may admit others**, for modules and for projects: a version that begins like one that ends in a
plus sign, and a project with the same path in another build. -/
theorem not_forall_exact_admits :
    (¬∀ a b : ModuleId, (ComponentId.module a).Made → (ComponentId.module b).Made →
      ((exact (.module a)).admits (.module b) = true ↔ a = b)) ∧
    ¬∀ a b : ProjectId, (ComponentId.project a).Made → (ComponentId.project b).Made →
      ((exact (.project a)).admits (.project b) = true ↔ a = b) := by
  constructor
  · intro h
    have hadmits := h ⟨"org", "core", "1.+"⟩ ⟨"org", "core", "1.4"⟩ (ComponentId.made_iff_named.2 (by decide))
      (ComponentId.made_iff_named.2 (by decide))
    exact absurd (hadmits.1 (by decide)) (by decide)
  · intro h
    have hadmits := h ⟨":", ":app"⟩ ⟨"tools", ":app"⟩ (ComponentId.made_iff_named.2 (by decide))
      (ComponentId.made_iff_named.2 (by decide))
    exact absurd (hadmits.1 (by decide)) (by decide)

end Selector

end ResolutionLog
