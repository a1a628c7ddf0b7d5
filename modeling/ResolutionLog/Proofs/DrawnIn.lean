import ResolutionLog.Proofs.Inspection
import ResolutionLog.Proofs.Tokens

/-! # What a configuration draws in

A report says for each dependency of a configuration which configurations of the target it draws in. These are found
by going through the mapping of the dependency with the hierarchy, and if nothing has been found, by looking up the
name of the configuration. That the dependency is there at all has been decided before, by its tokens alone.

The two decisions agree: a dependency that is there always draws in something, and the second way is taken only where
no token is in the hierarchy, so that a wildcard or the token for everything has let the dependency in. What is drawn
in is said by `ConfigurationMapping.DrawsIn`, in terms of the text of the mapping. Main statement:
`ModuleFixture.inspect_drawsIn`. -/

namespace ResolutionLog

open Std

namespace ConfigurationMapping

/-! ## What a text gives -/

/-- The targets that the text of a mapping gives to a token, wherever this stands: with `source` in the place of `@`
and `requested` in that of `#`. -/
def written (text token source requested : String) : List String :=
  (targetsIn (clauses text) token).map (resolveTarget source requested)

/-- The targets that the text gives to some of its tokens, one after the other, each token standing for itself. -/
def writtenFor (text requested : String) (tokens : List String) : List String :=
  tokens.flatMap fun token => written text token token requested

/-- **What a dependency draws in for a configuration** with this name and hierarchy, by the text of its mapping. -/
structure DrawsIn (text name : String) (hierarchy targets : List String) : Prop where
  ne_nil : targets ≠ []
  nodup : targets.Nodup
  /-- All tokens in the hierarchy give their targets, in the order of the text. -/
  of_named : (∃ token ∈ tokens text, token ∈ hierarchy) →
    targets = (writtenFor text name ((tokens text).filter (· ∈ hierarchy))).eraseDups
  /-- If there are none, the wildcard gives its targets to the configuration, or else the token for everything. -/
  of_unnamed : (∀ token ∈ tokens text, token ∉ hierarchy) →
    ∃ token ∈ tokens text, token = (if wildcard ∈ tokens text then wildcard else allConfigurations) ∧
      targets = (written text token name name).eraseDups

/-- A list in writing has at least one item. -/
theorem items_ne_nil (text : String) : items text ≠ [] := by
  obtain ⟨piece, pieces, h⟩ := Text.exists_pieces_eq_cons ',' text.toList
  rw [items, Text.splitAtEach, h]
  exact List.cons_ne_nil _ _

/-- A segment gives each source something. -/
theorem Clause.targetsOf_ne_nil (segment source : String) : (Clause.ofSegment segment).targetsOf source ≠ [] := by
  unfold Clause.ofSegment
  split
  · exact items_ne_nil _
  · exact List.cons_ne_nil _ _

/-- A token that stands in a text is given something. -/
theorem written_ne_nil {text token : String} (h : token ∈ tokens text) (source requested : String) :
    written text token source requested ≠ [] := by
  obtain ⟨c, hc, hsource⟩ := List.mem_flatMap.1 h
  obtain ⟨segment, -, rfl⟩ := List.mem_map.1 hc
  obtain ⟨target, htarget⟩ := List.exists_mem_of_ne_nil _ (Clause.targetsOf_ne_nil segment token)
  have hgiven : target ∈ targetsIn (clauses text) token :=
    List.mem_flatMap.2 ⟨_, hc, List.mem_flatMap.2 ⟨token, List.mem_filter.2 ⟨hsource, decide_eq_true rfl⟩, htarget⟩⟩
  exact List.ne_nil_of_mem (List.mem_map_of_mem hgiven)

/-! ## What a mapping gives -/

variable {text : String} {m : ConfigurationMapping}

/-- A name has an entry when it is one of the sources in the text. -/
theorem isSome_entry?_iff (h : parse text = .ok m) (source : String) :
    (m.entry? source).isSome ↔ source ∈ tokens text := by
  obtain ⟨-, rfl⟩ := parse_eq_ok_iff.1 h
  rw [(gathers_mapAll _).isSome_iff, map_fst_pairs, tokens]

/-- A mapping gives what the text gives to the token that counts. -/
theorem targets_of_entryFor? {source token : String} (h : parse text = .ok m)
    (htoken : m.entryFor? source = m.entry? token) (requested : String) :
    m.targets source requested = (written text token source requested).eraseDups := by
  obtain ⟨-, rfl⟩ := parse_eq_ok_iff.1 h
  rw [targets, htoken, (gathers_mapAll _).eraseDups_eq, gathered_pairs, written]

/-- A source with an entry is given what the text gives it. -/
theorem targets_of_mem {source : String} (h : parse text = .ok m) (hs : source ∈ tokens text) (requested : String) :
    m.targets source requested = (written text source source requested).eraseDups := by
  obtain ⟨own, hown⟩ := Option.isSome_iff_exists.1 ((isSome_entry?_iff h source).2 hs)
  refine targets_of_entryFor? h ?_ requested
  rw [entryFor?, hown, Option.some_or]

/-- A source without an entry is given what the text gives to the wildcard, or else to the token for everything. -/
theorem targets_of_not_mem {source : String} (h : parse text = .ok m) (hs : source ∉ tokens text)
    (requested : String) :
    m.targets source requested = (written text
      (if wildcard ∈ tokens text then wildcard else allConfigurations) source requested).eraseDups := by
  have hown : m.entry? source = none :=
    Option.not_isSome_iff_eq_none.1 (mt (isSome_entry?_iff h source).1 hs)
  refine targets_of_entryFor? h ?_ requested
  rw [entryFor?, hown, Option.none_or]
  split
  · next hwild =>
    obtain ⟨targets, hentry⟩ := Option.isSome_iff_exists.1 ((isSome_entry?_iff h wildcard).2 hwild)
    rw [hentry, Option.some_or]
  · next hwild =>
    have hnone : m.entry? wildcard = none :=
      Option.not_isSome_iff_eq_none.1 (mt (isSome_entry?_iff h wildcard).1 hwild)
    rw [hnone, Option.none_or]

end ConfigurationMapping

open ConfigurationMapping

namespace Dependency

variable {text name : String} {d : Dependency} {hierarchy : NameSet}

/-- Sources in the hierarchy give what the text gives its tokens there. -/
theorem eraseDups_targets_eq (h : parse text = .ok d.mapping) (name : String) (hierarchy : NameSet) :
    ((d.mapping.sources.filter fun source => source ∈ hierarchy).flatMap fun source =>
        d.mapping.targets source name).eraseDups =
      (writtenFor text name ((tokens text).filter fun token => token ∈ hierarchy)).eraseDups := by
  have hsources : d.mapping.sources.filter (fun source => source ∈ hierarchy) =
      ((tokens text).filter fun token => token ∈ hierarchy).eraseDups := by
    rw [sources_of_parse h, eraseDups_filter]
  -- a source that is written again gives the same targets again
  rw [hsources, eraseDups_flatMap_eraseDups, writtenFor]
  refine eraseDups_flatMap_congr fun token htoken => ?_
  rw [targets_of_mem h (List.mem_filter.1 htoken).1, eraseDups_eraseDups]

/-- A dependency of a configuration with no token in the hierarchy has been let in by a token that is looked up. -/
theorem mem_tokens_of_includedIn (h : parse text = .ok d.mapping) (hin : d.includedIn name hierarchy = true)
    (hnone : ∀ token ∈ tokens text, token ∉ hierarchy) :
    (if wildcard ∈ tokens text then wildcard else allConfigurations) ∈ tokens text := by
  rw [includedIn, sources_of_parse h, includes_iff] at hin
  split
  · assumption
  · next hwild =>
    rcases hin with ⟨token, htoken, rfl | hm⟩ | houtlasts
    · exact List.mem_eraseDups.1 htoken
    · exact absurd hm (hnone token (List.mem_eraseDups.1 htoken))
    · exact absurd (List.mem_eraseDups.1 houtlasts.mem) hwild

/-- If some token is in the hierarchy, what is found for the sources there is not empty and stays. -/
theorem targetsIn_of_named (h : parse text = .ok d.mapping) (name : String)
    (hsome : ∃ token ∈ tokens text, token ∈ hierarchy) :
    d.targetsIn name hierarchy ≠ [] ∧ d.targetsIn name hierarchy =
      (writtenFor text name ((tokens text).filter fun token => token ∈ hierarchy)).eraseDups := by
  obtain ⟨token, htoken, hm⟩ := hsome
  obtain ⟨target, htarget⟩ := List.exists_mem_of_ne_nil _ (written_ne_nil htoken token name)
  have hgiven : target ∈ writtenFor text name ((tokens text).filter fun token => token ∈ hierarchy) :=
    List.mem_flatMap.2 ⟨token, List.mem_filter.2 ⟨htoken, decide_eq_true hm⟩, htarget⟩
  have hfound := eraseDups_ne_nil (List.ne_nil_of_mem hgiven)
  have htargets : d.targetsIn name hierarchy =
      (writtenFor text name ((tokens text).filter fun token => token ∈ hierarchy)).eraseDups := by
    unfold targetsIn
    -- the name is not looked up, by `hfound`
    simp only [eraseDups_targets_eq h name hierarchy]
  exact ⟨htargets ▸ hfound, htargets⟩

/-- If no token is in the hierarchy, nothing is found at first, and the name has no entry of its own. -/
theorem targetsIn_of_unnamed (h : parse text = .ok d.mapping) (hname : name ∈ hierarchy)
    (hnone : ∀ token ∈ tokens text, token ∉ hierarchy) :
    d.targetsIn name hierarchy = (written text
      (if wildcard ∈ tokens text then wildcard else allConfigurations) name name).eraseDups := by
  have hempty : (tokens text).filter (fun token => token ∈ hierarchy) = [] :=
    List.filter_eq_nil_iff.2 fun token htoken => decide_eq_true_iff.not.2 (hnone token htoken)
  have hown : name ∉ tokens text := fun hm => hnone name hm hname
  rw [← targets_of_not_mem h hown]
  unfold targetsIn
  -- what was found is empty, so that the name is looked up
  simp only [eraseDups_targets_eq h, hempty, writtenFor, List.flatMap_nil, List.eraseDups_nil]

/-- **What is shown is drawn in**: this holds of each dependency of a configuration whose hierarchy has its own
name. -/
theorem drawsIn_targetsIn (h : parse text = .ok d.mapping) (hname : name ∈ hierarchy)
    (hin : d.includedIn name hierarchy = true) :
    DrawsIn text name hierarchy.toList (d.targetsIn name hierarchy) := by
  have hmem : ∀ token, token ∈ hierarchy.toList ↔ token ∈ hierarchy := fun _ => ExtTreeSet.mem_toList
  by_cases hsome : ∃ token ∈ tokens text, token ∈ hierarchy
  · obtain ⟨hfound, htargets⟩ := targetsIn_of_named h name hsome
    refine ⟨hfound, htargets ▸ nodup_eraseDups _, fun _ => ?_, fun hnone => ?_⟩
    · simp only [hmem]
      exact htargets
    · obtain ⟨token, htoken, hm⟩ := hsome
      exact absurd ((hmem token).2 hm) (hnone token htoken)
  · have hnone : ∀ token ∈ tokens text, token ∉ hierarchy := fun token htoken hm => hsome ⟨token, htoken, hm⟩
    have hkey := mem_tokens_of_includedIn h hin hnone
    have htargets := targetsIn_of_unnamed h hname hnone
    refine ⟨?_, htargets ▸ nodup_eraseDups _, fun hex => ?_, fun _ => ⟨_, hkey, rfl, htargets⟩⟩
    · rw [htargets]
      exact eraseDups_ne_nil (written_ne_nil hkey name name)
    · obtain ⟨token, htoken, hm⟩ := hex
      exact absurd ((hmem token).1 hm) (hnone token htoken)

end Dependency

/-- **What is drawn in by the dependencies of a configuration**: if a configuration is found, the dependencies shown
are those that are for it, in their order, and each of them draws in something, without repeats. These are the
targets that the text of its mapping gives to all tokens in the hierarchy, or if there are none, those that it gives
to the wildcard, or else to the token for everything. -/
theorem ModuleFixture.inspect_drawsIn {m : ModuleFixture} {name : String} {r : ConfigurationReport}
    (h : m.inspect name = .ok r) :
    List.Forall₂ (fun d shown => DrawsIn d.mapping name r.hierarchy shown.targets)
      (m.dependencies.filter fun d => includes name (.ofList r.hierarchy) d.sources) r.dependencies := by
  obtain ⟨dependencies, artifacts, id, c, hierarchy, hdependencies, rfl, hname, rfl⟩ := exists_view_of_inspect h
  show List.Forall₂ (fun d shown => DrawsIn d.mapping c.name hierarchy.toList shown.targets)
    (m.dependencies.filter fun d => includes c.name (.ofList hierarchy.toList) d.sources)
    ((dependencies.filter fun d => d.includedIn c.name hierarchy).map fun d => d.report c.name hierarchy)
  rw [NameSet.ofList_toList, List.forall₂_map_right_iff]
  have hchosen := (List.forall₂_and_left _ _).2
    ⟨fun d hd => (List.mem_filter.1 hd).2, chosen_of_mapM hdependencies c.name hierarchy⟩
  refine hchosen.imp fun d made ⟨hin, hmade⟩ => ?_
  obtain ⟨-, -, -, hmapping, -⟩ := DependencyFixture.dependency_eq_ok_iff.1 hmade
  have hsources : d.sources = made.mapping.sources := by simp only [DependencyFixture.sources, hmapping]
  refine Dependency.drawsIn_targetsIn hmapping hname ?_
  rwa [Dependency.includedIn, ← hsources]

namespace Sample

/-- A module whose dependencies are for a configuration by name, by the wildcard, by the token for everything, and not
at all. -/
def mappedModule : ModuleFixture where
  id := "org:app:1.0"
  configurations := [⟨"a", ["b"], true, true⟩, ⟨"b", [], true, true⟩]
  dependencies := [⟨"org:lib:1.0", "b->x,@;a->#,x;b->y", [], [], true, false, false⟩,
    ⟨"org:log:2.0", "*,!b->@,#;%->z", [], [], true, false, false⟩,
    ⟨"org:all:1.0", "%->z,#", [], [], true, false, false⟩, ⟨"org:none:1.0", "c", [], [], true, false, false⟩]
  excludes := []
  artifacts := []

/-- What is shown of the configuration that extends the other one. -/
def mappedReport : ConfigurationReport where
  component := "org:app:1.0"
  name := "a"
  hierarchy := ["a", "b"]
  transitive := true
  visible := true
  dependencies := [⟨"org:lib:1.0", ["x", "b", "y", "a"], true, false, false, []⟩,
    ⟨"org:log:2.0", ["a"], true, false, false, []⟩, ⟨"org:all:1.0", ["z", "a"], true, false, false, []⟩]
  excludes := []
  artifacts := []

end Sample

/-- Both sources of the first dependency are in the hierarchy, one of them twice in the text; the second dependency is
looked up under the wildcard, and the third one under the token for everything. -/
theorem ModuleFixture.inspect_drawsIn_sample :
    Sample.mappedModule.inspect "a" = .ok Sample.mappedReport ∧
      DrawsIn "b->x,@;a->#,x;b->y" "a" ["a", "b"] ["x", "b", "y", "a"] ∧
      DrawsIn "*,!b->@,#;%->z" "a" ["a", "b"] ["a"] ∧ DrawsIn "%->z,#" "a" ["a", "b"] ["z", "a"] := by
  have hfound : Sample.mappedModule.inspect "a" = .ok Sample.mappedReport := by decide +kernel
  have hchosen : (Sample.mappedModule.dependencies.filter fun d =>
      includes "a" (.ofList Sample.mappedReport.hierarchy) d.sources) =
        Sample.mappedModule.dependencies.take 3 := by decide +kernel
  have hdrawn := inspect_drawsIn hfound
  rw [hchosen] at hdrawn
  obtain ⟨hfirst, hdrawn⟩ := List.forall₂_cons.1 hdrawn
  obtain ⟨hsecond, hdrawn⟩ := List.forall₂_cons.1 hdrawn
  exact ⟨hfound, hfirst, hsecond, (List.forall₂_cons.1 hdrawn).1⟩

end ResolutionLog
