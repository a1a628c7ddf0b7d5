import Mathlib.Data.List.Basic
import ResolutionLog.Proofs.Inspection

/-! # Inheritance

A configuration inherits what the configurations of its hierarchy see: their hierarchies, their artifacts, their
exclude rules and their dependencies (`ConfigurationView.Inherits`). The exception is a dependency whose sources
negate the configuration by name, which a wildcard may then give to the parent alone.

All four come from one fact, that the hierarchy of the parent is a part of the other one. It holds of the answers
of a component wherever no cycle is reached, whatever was asked before each of them
(`ComponentMetadata.configuration?_inherits`). For the rest see `Descriptor.view_inherits`. -/

namespace ResolutionLog

open Relation Std

/-! ## Larger hierarchies -/

section Larger

variable {hierarchy larger : NameSet} (hsub : ∀ other ∈ hierarchy, other ∈ larger)

include hsub

/-- What is for a configuration is for another one with a larger hierarchy, unless this is negated. -/
theorem includes_of_includes {parent name : String} {tokens : List String} (hnot : negation name ∉ tokens)
    (h : includes parent hierarchy tokens = true) : includes name larger tokens = true := by
  induction tokens with
  | nil => simp at h
  | cons token later ih =>
    have hlater : negation name ∉ later := fun hm => hnot (List.mem_cons_of_mem token hm)
    rw [includes] at h
    split at h
    · next hdecides =>
      rcases hdecides with rfl | hm
      · exact includes_cons_all name larger later
      · exact includes_cons_of_mem (hsub token hm) later
    · split at h
      · next hwild =>
        -- the negation of the parent is not what is looked for now
        rw [hwild.1]
        exact includes_cons_wildcard hlater
      · exact includes_cons_of_includes (ih hlater h) token

/-- A rule that applies to a hierarchy applies to a larger one. -/
theorem ExcludeRule.appliesTo_of_appliesTo {rule : ExcludeRule} (h : rule.appliesTo hierarchy = true) :
    rule.appliesTo larger = true := by
  rw [appliesTo_iff] at h ⊢
  obtain ⟨name, hscope, hm⟩ := h
  exact ⟨name, hscope, hsub name hm⟩

end Larger

/-- **A larger hierarchy has at least the same rules**, in the same order. -/
theorem excludesInScope_sublist {hierarchy larger : NameSet} (hsub : ∀ other ∈ hierarchy, other ∈ larger)
    (rules : List ExcludeRule) : (excludesInScope rules hierarchy).Sublist (excludesInScope rules larger) := by
  rw [excludesInScope, excludesInScope, eraseDups_filter, eraseDups_filter]
  exact List.monotone_filter_right _ fun rule => ExcludeRule.appliesTo_of_appliesTo hsub

/-! ## Views -/

/-- **One view inherits from another**: it has all that the other one has, but may lack dependencies that negate
its name. -/
structure ConfigurationView.Inherits (view inherited : ConfigurationView) : Prop where
  hierarchy : ∀ other ∈ inherited.hierarchy, other ∈ view.hierarchy
  artifacts : ∀ artifact ∈ inherited.artifacts, artifact ∈ view.artifacts
  excludes : inherited.excludes.Sublist view.excludes
  dependencies : (inherited.dependencies.filter fun dependency =>
    negation view.name ∉ dependency.mapping.sources).Sublist view.dependencies

/-- **A view inherits from each view with a smaller hierarchy.** -/
theorem Descriptor.view_inherits (d : Descriptor) (id : ComponentId) (artifacts : DeclaredArtifacts)
    (c parent : Configuration) {hierarchy larger : NameSet} (hsub : ∀ other ∈ hierarchy, other ∈ larger) :
    (d.view id artifacts c larger).Inherits (d.view id artifacts parent hierarchy) where
  hierarchy := hsub
  artifacts := by
    intro artifact h
    obtain ⟨name, hm, hof⟩ := DeclaredArtifacts.mem_published_iff.1 h
    exact DeclaredArtifacts.mem_published_iff.2 ⟨name, hsub name hm, hof⟩
  excludes := excludesInScope_sublist hsub d.excludes
  dependencies := by
    show ((d.dependencies.filter fun dependency => dependency.includedIn parent.name hierarchy).filter
      fun dependency => negation c.name ∉ dependency.mapping.sources).Sublist
        (d.dependencies.filter fun dependency => dependency.includedIn c.name larger)
    rw [List.filter_filter]
    refine List.monotone_filter_right _ fun dependency h => ?_
    obtain ⟨hnot, hincluded⟩ := Bool.and_eq_true_iff.1 h
    exact includes_of_includes hsub (of_decide_eq_true hnot) hincluded

/-! ## Answers -/

/-- What is reached from what is free of cycles is free of cycles. -/
theorem CycleFree.of_reach {α : Type} {step : α → α → Prop} {a b : α} (h : CycleFree step a)
    (hr : ReflTransGen step a b) : CycleFree step b := fun c hc => h c (hr.trans hc)

namespace ComponentMetadata

/-- The answers about a name that is free of cycles have what those about a name in its hierarchy have. -/
theorem hierarchy_subset {d : Descriptor} {m m' : ComponentMetadata} (hm : m.Sound d) (hm' : m'.Sound d)
    {name parent : String} (hfree : CycleFree d.Extends name) (hparent : parent ∈ (m.hierarchy name).1) :
    ∀ other ∈ (m'.hierarchy parent).1, other ∈ (m.hierarchy name).1 := by
  have hcloses := (hm.hierarchy name).2 hfree
  have hreach : ReflTransGen d.Extends name parent := (hcloses parent).1 hparent
  intro other hother
  rw [hcloses]
  exact hreach.trans (((hm'.hierarchy parent).2 (hfree.of_reach hreach) other).1 hother)

/-- **A configuration inherits from those in its hierarchy.** When a declared name is free of cycles, and another
declared name is in its hierarchy, then both configurations are found, and the one inherits from the other, whatever
the component has been asked before each question. -/
theorem configuration?_inherits (id : ComponentId) (declarations : List Configuration)
    (dependencies : List Dependency) (excludes : List ExcludeRule) (artifacts : DeclaredArtifacts)
    (earlier later : List Query) (name parent : String)
    (hfree : CycleFree (Extends declarations) name) (hname : ∃ c ∈ declarations, c.name = name)
    (hparent : ∃ c ∈ declarations, c.name = parent)
    (hmem : parent ∈ ((asked id (.ofLists declarations dependencies excludes) artifacts
      earlier).hierarchy name).1) :
    (∀ other ∈ ((asked id (.ofLists declarations dependencies excludes) artifacts later).hierarchy parent).1,
      other ∈ ((asked id (.ofLists declarations dependencies excludes) artifacts earlier).hierarchy name).1) ∧
    ∃ view inherited,
      ((asked id (.ofLists declarations dependencies excludes) artifacts earlier).configuration? name).1 =
        some view ∧
      ((asked id (.ofLists declarations dependencies excludes) artifacts later).configuration? parent).1 =
        some inherited ∧
      view.name = name ∧ inherited.name = parent ∧ view.Inherits inherited := by
  -- a declared name is found with the view of its last declaration
  have hfound : ∀ {name : String}, (∃ c ∈ declarations, c.name = name) → ∃ c, c.name = name ∧
      ∀ history, ((asked id (.ofLists declarations dependencies excludes) artifacts
        history).configuration? name).1 = some (Descriptor.view (.ofLists declarations dependencies excludes) id
          artifacts c ((asked id (.ofLists declarations dependencies excludes) artifacts
            history).hierarchy name).1) := by
    intro name hdeclared
    obtain ⟨c, hlast, hc⟩ := exists_lastDeclared_iff.2 hdeclared
    refine ⟨c, hc, fun history => ?_⟩
    rw [(consistent_asked id _ artifacts history).configuration?_eq name,
      Descriptor.ofLists_configuration?_eq_some_iff.2 ⟨hlast, hc⟩, Option.map_some]
  rw [← @Descriptor.extends_ofLists declarations dependencies excludes] at hfree
  have hsub := hierarchy_subset ((sound_fresh id _ artifacts).after earlier)
    ((sound_fresh id _ artifacts).after later) hfree hmem
  obtain ⟨c, rfl, hview⟩ := hfound hname
  obtain ⟨p, rfl, hinherited⟩ := hfound hparent
  exact ⟨hsub, _, _, hview earlier, hinherited later, rfl, rfl, Descriptor.view_inherits _ id artifacts c p hsub⟩

end ComponentMetadata

namespace Sample

/-- A configuration that extends another one. -/
def tower : List Configuration := [⟨"base", [], true, true⟩, ⟨"app", ["base"], true, true⟩]

/-- Dependencies for every configuration, for all but the second, and for the first with all that extend it. -/
def towerDependencies : List Dependency :=
  [["*"], ["*", "!app"], ["base"]].map fun sources =>
    .declare (.build "lib") ⟨sources.map fun source => (source, ["default"])⟩

/-- In the sample only the application extends something, the base. -/
theorem extends_tower {name parent : String} (h : Extends tower name parent) : name = "app" ∧ parent = "base" := by
  obtain ⟨c, hc, rfl, hparent⟩ := h.exists_mem
  rw [tower, List.mem_cons, List.mem_singleton] at hc
  rcases hc with rfl | rfl
  · exact absurd hparent List.not_mem_nil
  · exact ⟨rfl, List.mem_singleton.1 hparent⟩

/-- There is no cycle in the sample. -/
theorem cycleFree_tower (name : String) : CycleFree (Extends tower) name := by
  intro other _ hcycle
  -- the first step leaves the one configuration, and the last step comes to the other one
  obtain ⟨next, hfirst, -⟩ := TransGen.head'_iff.1 hcycle
  obtain ⟨before, -, hlast⟩ := TransGen.tail'_iff.1 hcycle
  have heq : "app" = "base" := (extends_tower hfirst).1.symm.trans (extends_tower hlast).2
  exact absurd heq (by decide)

end Sample

namespace ComponentMetadata

/-- The second configuration inherits from the first, which was asked for after it. -/
theorem configuration?_inherits_sample :
    "base" ∈ ((asked (.module ⟨"org", "app", "1.0"⟩) (.ofLists Sample.tower Sample.towerDependencies []) ∅
        []).hierarchy "app").1 ∧
      ∃ view inherited,
        ((asked (.module ⟨"org", "app", "1.0"⟩) (.ofLists Sample.tower Sample.towerDependencies []) ∅
          []).configuration? "app").1 = some view ∧
        ((asked (.module ⟨"org", "app", "1.0"⟩) (.ofLists Sample.tower Sample.towerDependencies []) ∅
          [.configuration "app"]).configuration? "base").1 = some inherited ∧
        view.Inherits inherited := by
  have hmem : "base" ∈ ((asked (.module ⟨"org", "app", "1.0"⟩)
      (.ofLists Sample.tower Sample.towerDependencies []) ∅ []).hierarchy "app").1 := by
    decide +kernel
  obtain ⟨-, view, inherited, hview, hinherited, -, -, h⟩ := configuration?_inherits
    (.module ⟨"org", "app", "1.0"⟩) Sample.tower Sample.towerDependencies [] ∅ [] [.configuration "app"]
    "app" "base" (Sample.cycleFree_tower "app") ⟨_, List.mem_cons_of_mem _ List.mem_cons_self, rfl⟩
    ⟨_, List.mem_cons_self, rfl⟩ hmem
  exact ⟨hmem, view, inherited, hview, hinherited, h⟩

/-- The dependency that negates the second configuration is one of the first alone. -/
example :
    ((asked (.module ⟨"org", "app", "1.0"⟩) (.ofLists Sample.tower Sample.towerDependencies []) ∅
      []).configuration? "app").1.map (fun view => view.dependencies.map fun d => d.mapping.sources) =
        some [["*"], ["base"]] ∧
    ((asked (.module ⟨"org", "app", "1.0"⟩) (.ofLists Sample.tower Sample.towerDependencies []) ∅
      []).configuration? "base").1.map (fun view => view.dependencies.map fun d => d.mapping.sources) =
        some [["*"], ["*", "!app"], ["base"]] := by
  decide +kernel

end ComponentMetadata

end ResolutionLog
