import ResolutionLog.Fixture.Module
import ResolutionLog.Proofs.Attempts
import ResolutionLog.Proofs.Cycles
import ResolutionLog.Proofs.Repeats

/-! # Inspecting a configuration

A module fixture is inspected by making the component that it describes and asking it for one configuration. What
must be accepted for this is `ModuleFixture.Accepted`, and what the report then says is `ModuleFixture.Describes`:
both speak of the fixture as it is written, and of nothing that is made of it on the way. The main statement is
`ModuleFixture.inspect_describes`. -/

namespace ResolutionLog

open Relation Std

/-! ## What is declared -/

/-- The configuration that is declared. -/
def ConfigurationFixture.declared (c : ConfigurationFixture) : Configuration :=
  ⟨c.name, c.parents, c.transitive, c.visible⟩

/-- The rule that is declared. -/
def ExcludeFixture.declared (e : ExcludeFixture) : ExcludeRule := ⟨e.group, e.name, .ofList e.configurations⟩

/-- The sources of the mapping of a dependency. -/
def DependencyFixture.sources (d : DependencyFixture) : List String :=
  match ConfigurationMapping.parse d.mapping with
  | .ok mapping => mapping.sources
  | .error _ => []

/-- The configurations that a module declares. -/
def ModuleFixture.declared (m : ModuleFixture) : List Configuration :=
  m.configurations.map ConfigurationFixture.declared

/-- An exclude rule that can be made. -/
def ExcludeFixture.Accepted (e : ExcludeFixture) : Prop :=
  ∃ rule, ExcludeRule.checked e.group e.name e.configurations = .ok rule

/-- A dependency of which all parts can be made. -/
structure DependencyFixture.Accepted (d : DependencyFixture) : Prop where
  requested : ∃ selector, Selector.parse d.requested = .ok selector
  mapping : ∃ mapping, ConfigurationMapping.parse d.mapping = .ok mapping
  files : FilesAccepted d.files
  excludes : ∀ e ∈ d.excludes, e.Accepted

/-- A module of which all parts can be made. -/
structure ModuleFixture.Accepted (m : ModuleFixture) : Prop where
  id : ∃ id, ComponentId.parse m.id = .ok id
  configurations : ∀ c ∈ m.configurations, ∃ configuration,
    Configuration.checked c.name c.parents c.transitive c.visible = .ok configuration
  dependencies : ∀ d ∈ m.dependencies, d.Accepted
  excludes : ∀ e ∈ m.excludes, e.Accepted
  artifacts : ∀ a ∈ m.artifacts, FilesAccepted a.files

/-! ## What a report says -/

/-- **The rules that count in a hierarchy are shown**: those whose scope has a name of it, in the order in which
they are first declared, and each once. -/
def ShowsRules (declared : List ExcludeRule) (hierarchy : List String) (shown : List ExcludeReport) : Prop :=
  ∃ rules : List ExcludeRule,
    (∀ rule, rule ∈ rules ↔ rule ∈ declared ∧ ∃ name ∈ rule.scope, name ∈ hierarchy) ∧
    rules.Pairwise (fun first second => declared.idxOf first < declared.idxOf second) ∧
    shown = rules.map fun rule => ⟨rule.group, rule.name⟩

/-- A dependency is shown with what it requests, its flags and its rules. -/
structure DependencyFixture.ShownIn (hierarchy : List String) (d : DependencyFixture) (shown : DependencyReport) :
    Prop where
  requested : ∃ selector, Selector.parse d.requested = .ok selector ∧ shown.requested = selector.display
  transitive_eq : shown.transitive = d.transitive
  changing_eq : shown.changing = d.changing
  force_eq : shown.force = d.force
  excludes : ShowsRules (d.excludes.map ExcludeFixture.declared) hierarchy shown.excludes

/-- The files declared for the names of a hierarchy, in any tables, are shown in the order of artifacts. -/
def ShowsArtifacts (declared : List ArtifactsFixture) (hierarchy shown : List String) : Prop :=
  ∃ artifacts : List Artifact,
    (∀ artifact, artifact ∈ artifacts ↔ ∃ a ∈ declared, a.configuration ∈ hierarchy ∧
      ∃ file ∈ a.files, Artifact.ofFileName file = .ok artifact) ∧
    artifacts.Pairwise (fun first second => compare first second = .lt) ∧
    shown = artifacts.map Artifact.display

/-- **A report describes a configuration of a module.** -/
structure ModuleFixture.Describes (m : ModuleFixture) (name : String) (r : ConfigurationReport) : Prop where
  component : ∃ id, ComponentId.parse m.id = .ok id ∧ r.component = id.display
  name_eq : r.name = name
  /-- The last declaration of the name counts. -/
  flags : ∃ c, LastDeclared m.declared c ∧ c.name = name ∧ r.transitive = c.transitive ∧ r.visible = c.visible
  /-- The hierarchy is in the order of the names. -/
  hierarchy_sorted : r.hierarchy.Pairwise (· < ·)
  /-- The hierarchy has all names that are reached. -/
  mem_hierarchy : ∀ other, other ∈ r.hierarchy ↔ ReflTransGen (Extends m.declared) name other
  /-- Of the declared dependencies those are shown that are for this configuration, in their order. -/
  dependencies : List.Forall₂ (DependencyFixture.ShownIn r.hierarchy)
    (m.dependencies.filter fun d => includes name (.ofList r.hierarchy) d.sources) r.dependencies
  excludes : ShowsRules (m.excludes.map ExcludeFixture.declared) r.hierarchy r.excludes
  artifacts : ShowsArtifacts m.artifacts r.hierarchy r.artifacts

/-! ## Parts of a fixture -/

namespace ConfigurationFixture

variable {c : ConfigurationFixture} {configuration : Configuration}

/-- A configuration is made as it is declared when its name is not blank. -/
theorem configuration_eq_ok_iff :
    c.configuration = .ok configuration ↔ Text.isBlank c.name = false ∧ configuration = c.declared := by
  rw [ConfigurationFixture.configuration, FixtureError.ofLog_eq_ok_iff, Configuration.checked, bind_eq_ok_iff]
  constructor
  · rintro ⟨name, hname, h⟩
    obtain ⟨rfl, hblank⟩ := requireText_eq_ok_iff.1 hname
    exact ⟨hblank, (Except.ok.inj h).symm⟩
  · rintro ⟨hblank, rfl⟩
    exact ⟨c.name, requireText_eq_ok_iff.2 ⟨rfl, hblank⟩, rfl⟩

/-- A configuration passes its check when its name is not blank. -/
theorem exists_checked_iff : (∃ configuration,
    Configuration.checked c.name c.parents c.transitive c.visible = .ok configuration) ↔
      Text.isBlank c.name = false := by
  simp only [← FixtureError.ofLog_eq_ok_iff]
  constructor
  · rintro ⟨configuration, h⟩
    exact (configuration_eq_ok_iff.1 h).1
  · exact fun h => ⟨c.declared, configuration_eq_ok_iff.2 ⟨h, rfl⟩⟩

end ConfigurationFixture

/-- A rule is made as it is declared when it is accepted. -/
theorem ExcludeFixture.rule_eq_ok_iff {e : ExcludeFixture} {rule : ExcludeRule} :
    e.rule = .ok rule ↔ e.Accepted ∧ rule = e.declared := by
  have hvalue : ∀ {rule}, ExcludeRule.checked e.group e.name e.configurations = .ok rule → rule = e.declared := by
    intro rule h
    simp only [ExcludeRule.checked, bind_eq_ok_iff, requireText_eq_ok_iff] at h
    obtain ⟨_, ⟨rfl, -⟩, _, ⟨rfl, -⟩, h⟩ := h
    exact (Except.ok.inj h).symm
  rw [ExcludeFixture.rule, FixtureError.ofLog_eq_ok_iff]
  constructor
  · exact fun h => ⟨⟨rule, h⟩, hvalue h⟩
  · rintro ⟨⟨other, h⟩, rfl⟩
    rw [h, hvalue h]

namespace DependencyFixture

variable {d : DependencyFixture}

/-- What a dependency is made of. -/
theorem dependency_eq_ok_iff {made : Dependency} :
    d.dependency = .ok made ↔ Artifact.ofFileNames d.files = .ok made.artifacts ∧
      ((∀ e ∈ d.excludes, e.Accepted) ∧ made.excludes = d.excludes.map ExcludeFixture.declared) ∧
      Selector.parse d.requested = .ok made.requested ∧ ConfigurationMapping.parse d.mapping = .ok made.mapping ∧
      made.transitive = d.transitive ∧ made.changing = d.changing ∧ made.force = d.force := by
  simp only [dependency, bind_eq_ok_iff, FixtureError.ofLog_eq_ok_iff,
    mapM_eq_ok_map_iff fun _ _ => ExcludeFixture.rule_eq_ok_iff]
  constructor
  · rintro ⟨artifacts, hartifacts, excludes, hexcludes, requested, hrequested, mapping, hmapping, h⟩
    obtain rfl := Except.ok.inj h
    exact ⟨hartifacts, hexcludes, hrequested, hmapping, rfl, rfl, rfl⟩
  · rintro ⟨hartifacts, hexcludes, hrequested, hmapping, htransitive, hchanging, hforce⟩
    refine ⟨_, hartifacts, _, hexcludes, _, hrequested, _, hmapping, ?_⟩
    rw [← htransitive, ← hchanging, ← hforce]
    rfl

/-- A dependency can be made when all its parts can. -/
theorem exists_dependency_iff : (∃ made, d.dependency = .ok made) ↔ d.Accepted := by
  constructor
  · rintro ⟨made, h⟩
    obtain ⟨hfiles, ⟨hexcludes, -⟩, hrequested, hmapping, -⟩ := dependency_eq_ok_iff.1 h
    exact ⟨⟨_, hrequested⟩, ⟨_, hmapping⟩, exists_artifactsOfFileNames_iff.1 ⟨_, hfiles⟩, hexcludes⟩
  · rintro ⟨⟨requested, hrequested⟩, ⟨mapping, hmapping⟩, hfiles, hexcludes⟩
    obtain ⟨artifacts, hartifacts⟩ := exists_artifactsOfFileNames_iff.2 hfiles
    exact ⟨⟨requested, mapping, artifacts, d.excludes.map ExcludeFixture.declared, d.transitive, d.changing,
      d.force⟩, dependency_eq_ok_iff.2 ⟨hartifacts, ⟨hexcludes, rfl⟩, hrequested, hmapping, rfl, rfl, rfl⟩⟩

end DependencyFixture

/-! ## Artifacts -/

namespace ArtifactsFixture

/-- Every name has the artifacts that some tables declare for it. -/
def AddUpTo (tables : List ArtifactsFixture) (declared : DeclaredArtifacts) : Prop :=
  ∀ name artifact, artifact ∈ DeclaredArtifacts.of declared name ↔
    ∃ a ∈ tables, a.configuration = name ∧ ∃ file ∈ a.files, Artifact.ofFileName file = .ok artifact

/-- One more table can be declared when its files are accepted, and adds them to those of its name. -/
theorem AddUpTo.declare {tables : List ArtifactsFixture} {declared : DeclaredArtifacts}
    (h : AddUpTo tables declared) (a : ArtifactsFixture) :
    SucceedsIff (a.declare declared) (FilesAccepted a.files) (AddUpTo (tables ++ [a])) := by
  refine (SucceedsIff.self ?_).thenOk fun set hset name artifact => ?_
  · simp only [FixtureError.ofLog_eq_ok_iff]
    exact exists_ofFileNames_iff
  have hfiles : artifact ∈ set ↔ ∃ file ∈ a.files, Artifact.ofFileName file = .ok artifact :=
    mem_ofFileNames_iff (FixtureError.ofLog_eq_ok_iff.1 hset)
  simp only [DeclaredArtifacts.of_declare, List.mem_append, List.mem_singleton, or_and_right, exists_or,
    exists_eq_left]
  split
  · next heq => rw [ExtTreeSet.mem_union_iff, h, hfiles, and_iff_right heq]
  · next hne => rw [h, or_iff_left fun hboth => hne hboth.1]

/-- **Declarations of artifacts add up**: tables can be declared when all their files are accepted. -/
theorem foldlM_declare (tables : List ArtifactsFixture) :
    SucceedsIff (tables.foldlM declare ∅) (∀ a ∈ tables, FilesAccepted a.files) (AddUpTo tables) := by
  refine SucceedsIff.foldlM (fun front a rest declared _ (h : AddUpTo front declared) => h.declare a)
    fun name artifact => ?_
  -- nothing is declared at first
  rw [DeclaredArtifacts.of, ExtTreeMap.getElem?_empty]
  refine iff_of_false ExtTreeSet.not_mem_empty ?_
  rintro ⟨_, hm, -⟩
  exact List.not_mem_nil hm

end ArtifactsFixture

/-- A member of a union of many sets is a member of one of them. -/
theorem mem_foldl_union {α : Type} {sets : α → ArtifactSet} {l : List α} {start : ArtifactSet}
    {artifact : Artifact} : artifact ∈ l.foldl (fun all a => all ∪ sets a) start ↔
      artifact ∈ start ∨ ∃ a ∈ l, artifact ∈ sets a := by
  induction l generalizing start with
  | nil => simp
  | cons a l ih =>
    simp only [List.foldl_cons, ih, ExtTreeSet.mem_union_iff, List.mem_cons, exists_eq_or_imp, or_assoc]

/-- What a hierarchy publishes is what is declared for its names. -/
theorem DeclaredArtifacts.mem_published_iff {a : DeclaredArtifacts} {hierarchy : NameSet} {artifact : Artifact} :
    artifact ∈ published a hierarchy ↔ ∃ name ∈ hierarchy, artifact ∈ of a name := by
  rw [published, mem_foldl_union, or_iff_right ExtTreeSet.not_mem_empty]
  simp only [ExtTreeSet.mem_toList]

/-! ## Rules in their order -/

/-- **The rules in scope are shown.** -/
theorem showsRules_excludesInScope (declared : List ExcludeRule) (hierarchy : NameSet) :
    ShowsRules declared hierarchy.toList ((excludesInScope declared hierarchy).map ExcludeRule.report) := by
  refine ⟨excludesInScope declared hierarchy, fun rule => ?_, ?_, rfl⟩
  · simp only [mem_excludesInScope, ExcludeRule.appliesTo_iff, ExtTreeSet.mem_toList]
  · refine (pairwise_idxOf_eraseDups _).imp_of_mem fun ha hb h => ?_
    have hfirst := (List.mem_filter.1 (List.mem_eraseDups.1 ha)).2
    have hsecond := (List.mem_filter.1 (List.mem_eraseDups.1 hb)).2
    exact idxOf_lt_of_idxOf_filter_lt hfirst hsecond h

/-- A set is the set of its members. -/
theorem NameSet.ofList_toList (names : NameSet) : (.ofList names.toList : NameSet) = names := by
  refine ExtTreeSet.ext_mem fun name => ?_
  rw [ExtTreeSet.mem_ofList, List.contains_iff_mem, ExtTreeSet.mem_toList]

/-! ## The component of a fixture -/

namespace ModuleFixture

variable {m : ModuleFixture}

/-- **A fixture makes a component of what it declares**, which has not been asked anything. -/
theorem metadata_eq_ok_iff {component : ComponentMetadata} :
    m.metadata = .ok component ↔
      (∀ c ∈ m.configurations, Text.isBlank c.name = false) ∧ (∀ e ∈ m.excludes, e.Accepted) ∧
      ∃ dependencies artifacts id, m.dependencies.mapM DependencyFixture.dependency = .ok dependencies ∧
        m.artifacts.foldlM ArtifactsFixture.declare ∅ = .ok artifacts ∧ ComponentId.parse m.id = .ok id ∧
        component = .fresh id
          (.ofLists m.declared dependencies (m.excludes.map ExcludeFixture.declared)) artifacts := by
  simp only [metadata, bind_eq_ok_iff, mapM_eq_ok_map_iff fun _ _ => ConfigurationFixture.configuration_eq_ok_iff,
    mapM_eq_ok_map_iff fun _ _ => ExcludeFixture.rule_eq_ok_iff]
  constructor
  · rintro ⟨_, ⟨hconfigurations, rfl⟩, dependencies, hdependencies, _, ⟨hexcludes, rfl⟩, artifacts, hartifacts, id,
      hid, h⟩
    exact ⟨hconfigurations, hexcludes, dependencies, artifacts, id, hdependencies, hartifacts, hid,
      (Except.ok.inj h).symm⟩
  · rintro ⟨hconfigurations, hexcludes, dependencies, artifacts, id, hdependencies, hartifacts, hid, rfl⟩
    exact ⟨_, ⟨hconfigurations, rfl⟩, dependencies, hdependencies, _, ⟨hexcludes, rfl⟩, artifacts, hartifacts, id,
      hid, rfl⟩

/-- A fixture makes a component when all its parts can be made. -/
theorem exists_metadata_iff : (∃ component, m.metadata = .ok component) ↔ m.Accepted := by
  constructor
  · rintro ⟨component, h⟩
    obtain ⟨hnames, hexcludes, dependencies, artifacts, id, hdependencies, hartifacts, hid, -⟩ :=
      metadata_eq_ok_iff.1 h
    refine ⟨⟨id, hid⟩, fun c hc => ConfigurationFixture.exists_checked_iff.2 (hnames c hc), fun d hd => ?_,
      hexcludes, (ArtifactsFixture.foldlM_declare m.artifacts).exists_iff.1 ⟨artifacts, hartifacts⟩⟩
    exact DependencyFixture.exists_dependency_iff.1 (exists_mapM_eq_ok_iff.1 ⟨dependencies, hdependencies⟩ d hd)
  · rintro ⟨⟨id, hid⟩, hnames, hdependencies, hexcludes, hartifacts⟩
    obtain ⟨dependencies, hdependencies⟩ :=
      exists_mapM_eq_ok_iff.2 fun d hd => DependencyFixture.exists_dependency_iff.2 (hdependencies d hd)
    obtain ⟨artifacts, hartifacts⟩ := (ArtifactsFixture.foldlM_declare m.artifacts).exists_iff.2 hartifacts
    exact ⟨_, metadata_eq_ok_iff.2 ⟨fun c hc => ConfigurationFixture.exists_checked_iff.1 (hnames c hc), hexcludes,
      dependencies, artifacts, id, hdependencies, hartifacts, hid, rfl⟩⟩

/-- Of a component one configuration is inspected. -/
theorem inspect_of_metadata {component : ComponentMetadata} (h : m.metadata = .ok component) (name : String) :
    m.inspect name = match (component.configuration? name).1 with
      | some view => .ok view.report
      | none => .error (.undeclaredConfiguration component.id name) := by
  rw [inspect, h]
  rfl

/-- **What a successful inspection reports on**: the view of a configuration with this name, which is in its
hierarchy. -/
theorem exists_view_of_inspect {name : String} {r : ConfigurationReport} (h : m.inspect name = .ok r) :
    ∃ dependencies artifacts id c hierarchy, m.dependencies.mapM DependencyFixture.dependency = .ok dependencies ∧
      c.name = name ∧ name ∈ hierarchy ∧ r = ((Descriptor.ofLists m.declared dependencies
        (m.excludes.map ExcludeFixture.declared)).view id artifacts c hierarchy).report := by
  -- there is no report without the component and the configuration
  cases hmade : m.metadata with
  | error e =>
    rw [inspect, hmade] at h
    cases h
  | ok component =>
    obtain ⟨-, -, dependencies, artifacts, id, hdependencies, -, -, rfl⟩ := metadata_eq_ok_iff.1 hmade
    have hfresh := ComponentMetadata.consistent_fresh id (.ofLists m.declared dependencies
      (m.excludes.map ExcludeFixture.declared)) artifacts
    rw [inspect_of_metadata hmade, hfresh.configuration?_eq name] at h
    cases hc : (Descriptor.ofLists m.declared dependencies
        (m.excludes.map ExcludeFixture.declared)).configuration? name with
    | none =>
      rw [hc] at h
      cases h
    | some c =>
      rw [hc] at h
      obtain ⟨-, hname⟩ := Descriptor.ofLists_configuration?_eq_some_iff.1 hc
      exact ⟨dependencies, artifacts, id, c, _, hdependencies, hname, (hfresh.mem_hierarchy name).1,
        (Except.ok.inj h).symm⟩

/-! ## The report -/

/-- The dependencies that are for a configuration are those made of the declared ones that are. -/
theorem chosen_of_mapM {dependencies : List Dependency}
    (h : m.dependencies.mapM DependencyFixture.dependency = .ok dependencies) (name : String)
    (hierarchy : NameSet) :
    List.Forall₂ (fun d made => d.dependency = .ok made)
      (m.dependencies.filter fun d => includes name hierarchy d.sources)
      (dependencies.filter fun d => d.includedIn name hierarchy) := by
  refine List.rel_filter (fun d made hmade => ?_) (mapM_eq_ok_iff.1 h)
  obtain ⟨-, -, -, hmapping, -⟩ := DependencyFixture.dependency_eq_ok_iff.1 hmade
  simp only [Dependency.includedIn, DependencyFixture.sources, hmapping]

/-- The dependencies of a module that are for a configuration are shown in their order. -/
theorem shownIn_of_mapM {dependencies : List Dependency}
    (h : m.dependencies.mapM DependencyFixture.dependency = .ok dependencies) (name : String)
    (hierarchy : NameSet) :
    List.Forall₂ (DependencyFixture.ShownIn hierarchy.toList)
      (m.dependencies.filter fun d => includes name hierarchy d.sources)
      ((dependencies.filter fun d => d.includedIn name hierarchy).map fun d => d.report name hierarchy) := by
  rw [List.forall₂_map_right_iff]
  refine (chosen_of_mapM h name hierarchy).imp fun d made hmade => ?_
  obtain ⟨-, ⟨-, hexcludes⟩, hrequested, -, htransitive, hchanging, hforce⟩ :=
    DependencyFixture.dependency_eq_ok_iff.1 hmade
  refine ⟨⟨made.requested, hrequested, rfl⟩, htransitive, hchanging, hforce, ?_⟩
  rw [← hexcludes]
  exact showsRules_excludesInScope made.excludes hierarchy

/-- The artifacts that a hierarchy publishes are shown in their order. -/
theorem showsArtifacts_published {artifacts : DeclaredArtifacts}
    (h : m.artifacts.foldlM ArtifactsFixture.declare ∅ = .ok artifacts) (hierarchy : NameSet) :
    ShowsArtifacts m.artifacts hierarchy.toList ((artifacts.published hierarchy).toList.map Artifact.display) := by
  refine ⟨(artifacts.published hierarchy).toList, fun artifact => ?_, ExtTreeSet.ordered_toList, rfl⟩
  have hdeclared := (ArtifactsFixture.foldlM_declare m.artifacts).of_eq_ok artifacts h
  simp only [ExtTreeSet.mem_toList, DeclaredArtifacts.mem_published_iff, hdeclared _ artifact]
  constructor
  · rintro ⟨name, hname, a, ha, rfl, hfiles⟩
    exact ⟨a, ha, hname, hfiles⟩
  · rintro ⟨a, ha, hname, hfiles⟩
    exact ⟨a.configuration, hname, a, ha, rfl, hfiles⟩

/-- **The report on a view describes the configuration** when the hierarchy of the view is what the name
reaches. -/
theorem describes_report {dependencies : List Dependency} {artifacts : DeclaredArtifacts} {id : ComponentId}
    (hdependencies : m.dependencies.mapM DependencyFixture.dependency = .ok dependencies)
    (hartifacts : m.artifacts.foldlM ArtifactsFixture.declare ∅ = .ok artifacts)
    (hid : ComponentId.parse m.id = .ok id) {c : Configuration} (hc : LastDeclared m.declared c)
    {hierarchy : NameSet}
    (hreached : ∀ other, other ∈ hierarchy ↔ ReflTransGen (Extends m.declared) c.name other) :
    m.Describes c.name ((Descriptor.ofLists m.declared dependencies
      (m.excludes.map ExcludeFixture.declared)).view id artifacts c hierarchy).report where
  component := ⟨id, hid, rfl⟩
  name_eq := rfl
  flags := ⟨c, hc, rfl, rfl, rfl⟩
  hierarchy_sorted := by
    have hordered : hierarchy.toList.Pairwise fun first second => compare first second = .lt :=
      ExtTreeSet.ordered_toList
    exact hordered.imp fun h => compareOfLessAndEq_eq_lt.1 h
  mem_hierarchy := by
    intro other
    rw [← hreached]
    exact ExtTreeSet.mem_toList
  dependencies := by
    show List.Forall₂ (DependencyFixture.ShownIn hierarchy.toList)
      (m.dependencies.filter fun d => includes c.name (.ofList hierarchy.toList) d.sources) _
    rw [NameSet.ofList_toList]
    exact shownIn_of_mapM hdependencies c.name hierarchy
  excludes := showsRules_excludesInScope _ hierarchy
  artifacts := showsArtifacts_published hartifacts hierarchy

/-- **Inspection finds the declared configurations and describes them.** It succeeds when the module can be made
and declares the name. If only the name is missing, the error says so. -/
theorem inspect_describes (m : ModuleFixture) (name : String) :
    ((∃ r, m.inspect name = .ok r) ↔ m.Accepted ∧ ∃ c ∈ m.configurations, c.name = name) ∧
    (∀ r, m.inspect name = .ok r → m.Describes name r) ∧
    (m.Accepted → (∀ c ∈ m.configurations, c.name ≠ name) →
      ∃ id, ComponentId.parse m.id = .ok id ∧
        m.inspect name = .error (.undeclaredConfiguration id name)) := by
  have hdeclares : (∃ c ∈ m.configurations, c.name = name) ↔ ∃ c, LastDeclared m.declared c ∧ c.name = name := by
    rw [exists_lastDeclared_iff, declared]
    simp only [List.mem_map, exists_exists_and_eq_and, ConfigurationFixture.declared]
  -- the module cannot be made, or it lacks the configuration, or this is described
  cases hmade : m.metadata with
  | error e =>
    have hrefused : ∀ r, m.inspect name ≠ .ok r := by
      intro r h
      rw [inspect, hmade] at h
      cases h
    have hnot : ¬m.Accepted := by
      rw [← exists_metadata_iff, hmade]
      rintro ⟨component, h⟩
      cases h
    refine ⟨⟨fun ⟨r, h⟩ => absurd h (hrefused r), fun h => absurd h.1 hnot⟩, fun r h => absurd h (hrefused r),
      fun h => absurd h hnot⟩
  | ok component =>
    have haccepted : m.Accepted := exists_metadata_iff.1 ⟨component, hmade⟩
    obtain ⟨-, -, dependencies, artifacts, id, hdependencies, hartifacts, hid, rfl⟩ := metadata_eq_ok_iff.1 hmade
    have hinspect := inspect_of_metadata hmade name
    -- nothing has been kept yet, so the answer is that of the descriptor
    rw [(ComponentMetadata.consistent_fresh _ _ _).configuration?_eq name] at hinspect
    rw [hdeclares]
    cases hc : (Descriptor.ofLists m.declared dependencies
        (m.excludes.map ExcludeFixture.declared)).configuration? name with
    | none =>
      rw [hc] at hinspect
      have hnone : ¬∃ c, LastDeclared m.declared c ∧ c.name = name := by
        rintro ⟨c, h⟩
        rw [Descriptor.ofLists_configuration?_eq_some_iff.2 h] at hc
        cases hc
      refine ⟨⟨fun ⟨r, h⟩ => ?_, fun h => absurd h.2 hnone⟩, fun r h => ?_, fun _ _ => ⟨id, hid, hinspect⟩⟩
      · rw [hinspect] at h
        cases h
      · rw [hinspect] at h
        cases h
    | some c =>
      rw [hc] at hinspect
      obtain ⟨hlast, rfl⟩ := Descriptor.ofLists_configuration?_eq_some_iff.1 hc
      refine ⟨⟨fun _ => ⟨haccepted, c, hlast, rfl⟩, fun _ => ⟨_, hinspect⟩⟩, fun r h => ?_, fun _ hnone => ?_⟩
      · rw [hinspect] at h
        obtain rfl := Except.ok.inj h
        refine describes_report hdependencies hartifacts hid hlast fun other => ?_
        rw [← @Descriptor.extends_ofLists m.declared dependencies (m.excludes.map ExcludeFixture.declared)]
        exact Descriptor.mem_hierarchy_empty_iff _ _ _
      · obtain ⟨other, hother, heq⟩ := hdeclares.2 ⟨c, hlast, rfl⟩
        exact absurd heq (hnone other hother)

end ModuleFixture

namespace Sample

/-- A module with two configurations that extend each other, and artifacts of an undeclared third one. -/
def cycleModule : ModuleFixture where
  id := "org:app:1.0"
  configurations := [⟨"a", ["b", "c"], true, true⟩, ⟨"b", ["a"], true, false⟩]
  dependencies := [⟨"org:lib:1.+", "c->default", [], [], true, false, false⟩,
    ⟨"org:log:2.0", "*,!b->default", [], [], true, false, false⟩]
  excludes := [⟨"org", "x", ["c"]⟩, ⟨"org", "x", ["c"]⟩]
  artifacts := [⟨"c", ["c.jar"]⟩, ⟨"a", ["a.jar"]⟩]

/-- What is shown of the second configuration. -/
def cycleReport : ConfigurationReport where
  component := "org:app:1.0"
  name := "b"
  hierarchy := ["a", "b", "c"]
  transitive := true
  visible := false
  dependencies := [⟨"org:lib:1.+", ["default"], true, false, false, []⟩]
  excludes := [⟨"org", "x"⟩]
  artifacts := ["a.jar", "c.jar"]

end Sample

namespace ModuleFixture

/-- The configuration on the cycle is found, and its report describes it. -/
theorem inspect_describes_sample :
    Sample.cycleModule.inspect "b" = .ok Sample.cycleReport ∧ Sample.cycleModule.Describes "b" Sample.cycleReport ∧
      ∃ id, Sample.cycleModule.inspect "d" = .error (.undeclaredConfiguration id "d") := by
  have hfound : Sample.cycleModule.inspect "b" = .ok Sample.cycleReport := by decide +kernel
  obtain ⟨hsucceeds, hdescribes, -⟩ := inspect_describes Sample.cycleModule "b"
  obtain ⟨-, -, hmissing⟩ := inspect_describes Sample.cycleModule "d"
  obtain ⟨id, -, herror⟩ := hmissing (hsucceeds.1 ⟨_, hfound⟩).1 (by decide)
  exact ⟨hfound, hdescribes _ hfound, id, herror⟩

end ModuleFixture

end ResolutionLog
