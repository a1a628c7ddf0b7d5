import ResolutionLog.Proofs.Walks

/-! # Questions about configurations on cycles

Configurations may extend each other in cycles. The answer to a question about a name can then depend on what was
asked before: a hierarchy that is kept while the walk is still in the middle of another one lacks what this one
gains later on (`ComponentMetadata.not_forall_answers_agree`). How far that goes is said by two statements.

`ComponentMetadata.answers_settle` holds whatever cycles there are: every question is answered, no answer goes beyond
what the name reaches, the first one has all of it, and what has been answered once, or has been kept on the way to
another answer, is the answer from then on. `ComponentMetadata.answers_agree` says where history cannot show: at all
names but those that reach a cycle through several names.

The invariant of all histories is `ComponentMetadata.Consistent`. In such a component a configuration is seen with
the hierarchy that its name is answered with (`Consistent.configuration?_eq`), so that everything said of hierarchies
holds of configurations too. -/

namespace ResolutionLog

open Relation Std

namespace ComponentMetadata

/-- A component of a descriptor that has been asked some questions. -/
def asked (id : ComponentId) (d : Descriptor) (artifacts : DeclaredArtifacts) (history : List Query) :
    ComponentMetadata :=
  (fresh id d artifacts).after history

/-- From now on all questions about a name are answered with one hierarchy. -/
def Settled (m : ComponentMetadata) (name : String) (known : NameSet) : Prop :=
  ∀ later, ((m.after later).hierarchy name).1 = known ∧
    ∀ view, ((m.after later).configuration? name).1 = some view → view.hierarchy = known

/-- **What is kept in a component fits together**: hierarchies have nothing but what their names reach, and all of
it where no cycle through several names is reached, and views are those of the kept hierarchies. -/
structure Consistent (id : ComponentId) (d : Descriptor) (artifacts : DeclaredArtifacts) (m : ComponentMetadata) :
    Prop where
  id_eq : m.id = id
  descriptor_eq : m.descriptor = d
  artifacts_eq : m.artifacts = artifacts
  grounded : d.Grounded m.hierarchies
  complete : d.Complete m.hierarchies
  views : ∀ name view, m.views[name]? = some view → ∃ c known, d.configuration? name = some c ∧
    m.hierarchies[name]? = some known ∧ view = d.view id artifacts c known

variable {id : ComponentId} {d : Descriptor} {artifacts : DeclaredArtifacts} {m : ComponentMetadata}

/-- A component that has answered nothing is consistent with what it was made of. -/
theorem consistent_fresh (id : ComponentId) (d : Descriptor) (artifacts : DeclaredArtifacts) :
    (fresh id d artifacts).Consistent id d artifacts where
  id_eq := rfl
  descriptor_eq := rfl
  artifacts_eq := rfl
  grounded := d.grounded_empty
  complete := d.complete_empty
  views := by
    intro name view h
    rw [fresh, ExtTreeMap.getElem?_empty] at h
    cases h

/-! ## One question -/

/-- The course of the walk that answers a question. -/
theorem collects_hierarchy (m : ComponentMetadata) (name : String) :
    m.descriptor.Collects ∅ [name] ∅ m.hierarchies (m.hierarchy name).1 (m.hierarchy name).2.hierarchies :=
  m.descriptor.collects_hierarchy name m.hierarchies

/-- The answer to a question is kept. -/
theorem kept_hierarchy (m : ComponentMetadata) (name : String) :
    (m.hierarchy name).2.hierarchies[name]? = some (m.hierarchy name).1 :=
  (m.collects_hierarchy name).kept_of_singleton ExtTreeSet.not_mem_empty

/-- The view that answers a question is kept. -/
theorem kept_configuration? {m : ComponentMetadata} {name : String} {view : ConfigurationView}
    (h : (m.configuration? name).1 = some view) : (m.configuration? name).2.views[name]? = some view := by
  cases hview : m.views[name]? with
  | some known =>
    rw [configuration?_of_kept hview] at h ⊢
    exact hview.trans h
  | none =>
    rw [ComponentMetadata.configuration?, hview] at h ⊢
    cases hc : m.descriptor.configuration? name with
    | none =>
      rw [hc] at h
      cases h
    | some c =>
      rw [hc] at h
      exact ExtTreeMap.getElem?_insert_self.trans h

/-- A kept hierarchy is the answer, and nothing changes. -/
theorem hierarchy_of_kept {name : String} {known : NameSet} (h : m.hierarchies[name]? = some known) :
    m.hierarchy name = (known, m) := by
  rw [hierarchy, Descriptor.hierarchy, Descriptor.walk_of_kept h]

namespace Consistent

variable (h : m.Consistent id d artifacts) (name : String)

include h

/-- A question about a hierarchy leaves what is kept consistent. -/
theorem hierarchy : (m.hierarchy name).2.Consistent id d artifacts := by
  obtain ⟨rfl, rfl, rfl, grounded, complete, views⟩ := h
  have hcourse := m.collects_hierarchy name
  refine ⟨rfl, rfl, rfl, (hcourse.grounded grounded).1, ?_, fun other view hview => ?_⟩
  · have hpath : ∀ other ∈ (∅ : NameSet), ReflTransGen m.descriptor.Extends other name :=
      fun _ hm => absurd hm ExtTreeSet.not_mem_empty
    refine (hcourse.complete hpath (fun other hm => ?_) complete).1
    rw [List.mem_singleton.1 hm]
  · obtain ⟨c, known, hc, hknown, rfl⟩ := views other view hview
    exact ⟨c, known, hc, hcourse.keeps hknown, rfl⟩

/-- The answer to a question about a hierarchy. -/
theorem mem_hierarchy : name ∈ (m.hierarchy name).1 ∧
    (∀ other ∈ (m.hierarchy name).1, ReflTransGen d.Extends name other) ∧
    (LoopsOnly d.Extends name →
      ∀ other, ReflTransGen d.Extends name other → other ∈ (m.hierarchy name).1) := by
  have hafter := h.hierarchy name
  have hkept := m.kept_hierarchy name
  obtain ⟨hself, hreach⟩ := hafter.grounded name _ hkept
  exact ⟨hself, hreach, hafter.complete name _ hkept⟩

/-- **A configuration is seen with the hierarchy that its name is answered with**, also if the view has been kept
since an earlier question. -/
theorem configuration?_eq : (m.configuration? name).1 =
    (d.configuration? name).map fun c => d.view id artifacts c (m.hierarchy name).1 := by
  cases hview : m.views[name]? with
  | some view =>
    obtain ⟨c, known, hc, hknown, rfl⟩ := h.views name view hview
    rw [configuration?_of_kept hview, hierarchy_of_kept hknown, hc, Option.map_some]
  | none =>
    rw [ComponentMetadata.configuration?, hview, h.descriptor_eq]
    cases hc : d.configuration? name with
    | none => rfl
    | some c =>
      have hafter := h.hierarchy name
      simp only [hafter.id_eq, hafter.descriptor_eq, hafter.artifacts_eq, Option.map_some]

/-- A question about a configuration keeps what a question about its hierarchy would keep, or nothing. -/
theorem configuration? : (m.configuration? name).2.Consistent id d artifacts ∧
    ((m.configuration? name).2.hierarchies = m.hierarchies ∨
      (m.configuration? name).2.hierarchies = (m.hierarchy name).2.hierarchies) := by
  cases hview : m.views[name]? with
  | some view =>
    rw [configuration?_of_kept hview]
    exact ⟨h, .inl rfl⟩
  | none =>
    rw [ComponentMetadata.configuration?, hview, h.descriptor_eq]
    cases hc : d.configuration? name with
    | none => exact ⟨h, .inl rfl⟩
    | some c =>
      have hafter := h.hierarchy name
      refine ⟨⟨hafter.id_eq, hafter.descriptor_eq, hafter.artifacts_eq, hafter.grounded, hafter.complete, ?_⟩,
        .inr rfl⟩
      intro other view hother
      rw [ExtTreeMap.getElem?_insert] at hother
      split at hother
      · next heq =>
        -- the new view is made of the hierarchy that has just been kept
        obtain rfl := LawfulEqCmp.compare_eq_iff_eq.1 heq
        obtain rfl := Option.some.inj hother
        refine ⟨c, _, hc, m.kept_hierarchy name, ?_⟩
        rw [hafter.id_eq, hafter.descriptor_eq, hafter.artifacts_eq]
      · exact hafter.views other view hother

/-- **A question leaves what is kept consistent**, and whatever was kept stays. -/
theorem ask (query : Query) : (m.ask query).Consistent id d artifacts ∧
    ∀ {known : NameSet}, m.hierarchies[name]? = some known → (m.ask query).hierarchies[name]? = some known := by
  cases query with
  | hierarchy asked => exact ⟨h.hierarchy asked, (m.collects_hierarchy asked).keeps⟩
  | configuration asked =>
    obtain ⟨hafter, heq⟩ := h.configuration? asked
    refine ⟨hafter, fun hk => ?_⟩
    rw [ComponentMetadata.ask]
    rcases heq with heq | heq
    · rw [heq, hk]
    · rw [heq]
      exact (m.collects_hierarchy asked).keeps hk

/-! ## Histories -/

/-- **What is kept stays consistent**, and whatever was kept stays, whatever the component is asked. -/
theorem after (history : List Query) : (m.after history).Consistent id d artifacts ∧
    ∀ {known : NameSet}, m.hierarchies[name]? = some known →
      (m.after history).hierarchies[name]? = some known := by
  induction history generalizing m with
  | nil => exact ⟨h, fun hk => hk⟩
  | cons query history ih =>
    obtain ⟨hasked, hkeeps⟩ := h.ask name query
    obtain ⟨hafter, hlater⟩ := ih hasked
    exact ⟨hafter, fun hk => hlater (hkeeps hk)⟩

/-- **A kept hierarchy is settled.** -/
theorem settled {known : NameSet} (hk : m.hierarchies[name]? = some known) : m.Settled name known := by
  intro later
  obtain ⟨hafter, hkeeps⟩ := h.after name later
  have heq : ((m.after later).hierarchy name).1 = known := by rw [hierarchy_of_kept (hkeeps hk)]
  refine ⟨heq, fun view hview => ?_⟩
  rw [hafter.configuration?_eq name, Option.map_eq_some_iff] at hview
  obtain ⟨c, -, rfl⟩ := hview
  exact heq

/-- **The hierarchy of a view that has been answered is settled.** -/
theorem settled_configuration? {view : ConfigurationView} (hv : (m.configuration? name).1 = some view) :
    (m.configuration? name).2.Settled name view.hierarchy := by
  obtain ⟨hafter, -⟩ := h.configuration? name
  obtain ⟨c, known, -, hknown, rfl⟩ := hafter.views name view (kept_configuration? hv)
  exact hafter.settled name hknown

end Consistent

/-- A component is consistent with what it was made of after every history of questions. -/
theorem consistent_asked (id : ComponentId) (d : Descriptor) (artifacts : DeclaredArtifacts)
    (history : List Query) : (asked id d artifacts history).Consistent id d artifacts :=
  ((consistent_fresh id d artifacts).after "" history).1

/-! ## What holds on cycles -/

/-- **Questions are answered and settle, whatever cycles there are.** After any history the walk for a name comes
to an end, and only one is possible. It finds the name and nothing but what this reaches, and a configuration is
found just if it is declared, with that hierarchy. A component that has not been asked before answers with all
that the name reaches. What a component keeps for a name is what it answers from then on, and so is what it has
answered. -/
theorem answers_settle (id : ComponentId) (declarations : List Configuration) (dependencies : List Dependency)
    (excludes : List ExcludeRule) (artifacts : DeclaredArtifacts) (history : List Query) (name : String) :
    let d := Descriptor.ofLists declarations dependencies excludes
    let first := fresh id d artifacts
    let m := asked id d artifacts history
    (∀ found table, d.Collects ∅ [name] ∅ m.hierarchies found table ↔
      (found, table) = ((m.hierarchy name).1, (m.hierarchy name).2.hierarchies)) ∧
    (name ∈ (m.hierarchy name).1 ∧
      (∀ other ∈ (m.hierarchy name).1, ReflTransGen (Extends declarations) name other) ∧
      ((m.configuration? name).1.isSome = true ↔ ∃ c ∈ declarations, c.name = name) ∧
      ∀ view, (m.configuration? name).1 = some view → view.hierarchy = (m.hierarchy name).1) ∧
    ((∀ other, other ∈ (first.hierarchy name).1 ↔ ReflTransGen (Extends declarations) name other) ∧
      ∀ view, (first.configuration? name).1 = some view →
        ∀ other, other ∈ view.hierarchy ↔ ReflTransGen (Extends declarations) name other) ∧
    ((∀ other known, m.hierarchies[other]? = some known → m.Settled other known) ∧
      (m.hierarchy name).2.Settled name (m.hierarchy name).1 ∧
      ∀ view, (m.configuration? name).1 = some view →
        (m.configuration? name).2.Settled name view.hierarchy) := by
  intro d first m
  have hm : m.Consistent id d artifacts := consistent_asked id d artifacts history
  have hfirst : first.Consistent id d artifacts := consistent_fresh id d artifacts
  have hextends : d.Extends = Extends declarations := Descriptor.extends_ofLists
  -- a view has the hierarchy that its name is answered with
  have hviewed : ∀ {m : ComponentMetadata}, m.Consistent id d artifacts → ∀ view,
      (m.configuration? name).1 = some view → view.hierarchy = (m.hierarchy name).1 := by
    intro m hm view hview
    rw [hm.configuration?_eq name, Option.map_eq_some_iff] at hview
    obtain ⟨c, -, rfl⟩ := hview
    rfl
  have hreached : ∀ other, other ∈ (first.hierarchy name).1 ↔
      ReflTransGen (Extends declarations) name other := by
    intro other
    rw [← hextends]
    exact d.mem_hierarchy_empty_iff name other
  refine ⟨fun found table => ?_, ⟨?_, ?_, ?_, hviewed hm⟩, ⟨hreached, fun view hview => ?_⟩,
    fun other known => hm.settled other, ?_, fun view => hm.settled_configuration? name⟩
  · have hcourse := m.collects_hierarchy name
    rw [hm.descriptor_eq] at hcourse
    constructor
    · intro h
      obtain ⟨hfound, htable⟩ := h.unique hcourse
      rw [hfound, htable]
    · intro h
      obtain ⟨rfl, rfl⟩ := Prod.mk.inj h
      exact hcourse
  · exact (hm.mem_hierarchy name).1
  · rw [← hextends]
    exact (hm.mem_hierarchy name).2.1
  · rw [hm.configuration?_eq name, Option.isSome_map, ← Descriptor.mem_names]
    exact Descriptor.mem_names_ofLists_iff
  · rw [hviewed hfirst view hview]
    exact hreached
  · exact (hm.hierarchy name).settled name (m.kept_hierarchy name)

end ComponentMetadata

namespace Sample

/-- Two configurations that extend each other. The first has one more parent. -/
def cycle : List Configuration := [⟨"a", ["b", "c"], true, true⟩, ⟨"b", ["a"], true, true⟩]

/-- In the list with the ring no two names come back to each other. -/
theorem loopsOnly_ring (name : String) : LoopsOnly (Extends ring) name := by
  intro b c _ hbc hcb
  by_contra hne
  -- a name that leads to another one is declared
  have hdeclared : ∀ {first other : String}, ReflTransGen (Extends ring) first other → first ≠ other →
      first = "app" ∨ first = "ring" := by
    intro first other h hne
    rcases ReflTransGen.cases_head h with heq | ⟨next, hstep, -⟩
    · exact absurd heq hne
    · exact (extends_ring hstep).imp_left And.left
  rcases hdeclared hbc hne with rfl | rfl
  · rcases hdeclared hcb (Ne.symm hne) with rfl | rfl
    · exact hne rfl
    · rcases reach_ring hbc with h | h <;> simp at h
  · rcases hdeclared hcb (Ne.symm hne) with rfl | rfl
    · rcases reach_ring hcb with h | h <;> simp at h
    · exact hne rfl

end Sample

namespace ComponentMetadata

/-- The hierarchy that is kept for the second name on the cycle stays, though the third name is missing. -/
theorem answers_settle_sample :
    (asked (.module ⟨"org", "app", "1.0"⟩) (.ofLists Sample.cycle [] []) ∅
        [.hierarchy "a"]).hierarchies["b"]? = some (.ofList ["a", "b"]) ∧
      (asked (.module ⟨"org", "app", "1.0"⟩) (.ofLists Sample.cycle [] []) ∅
        [.hierarchy "a"]).Settled "b" (.ofList ["a", "b"]) := by
  have hkept : (asked (.module ⟨"org", "app", "1.0"⟩) (.ofLists Sample.cycle [] []) ∅
      [.hierarchy "a"]).hierarchies["b"]? = some (.ofList ["a", "b"]) := by
    decide +kernel
  obtain ⟨-, -, -, hsettled, -⟩ := answers_settle (.module ⟨"org", "app", "1.0"⟩) Sample.cycle [] [] ∅
    [.hierarchy "a"] "b"
  exact ⟨hkept, hsettled "b" _ hkept⟩

/-! ## Where history shows -/

/-- **Where no cycle through several names is reached, history does not show.** After any two histories a
name has one hierarchy, and its configuration is one view, with its dependencies, excludes and artifacts. On
cycles an answer can only lack something of what a component answers at first. -/
theorem answers_agree (id : ComponentId) (declarations : List Configuration) (dependencies : List Dependency)
    (excludes : List ExcludeRule) (artifacts : DeclaredArtifacts) (earlier later : List Query) (name : String) :
    let d := Descriptor.ofLists declarations dependencies excludes
    let m := asked id d artifacts earlier
    let m' := asked id d artifacts later
    (LoopsOnly (Extends declarations) name →
      (m.hierarchy name).1 = (m'.hierarchy name).1 ∧ (m.configuration? name).1 = (m'.configuration? name).1) ∧
    ∀ other ∈ (m.hierarchy name).1, other ∈ ((fresh id d artifacts).hierarchy name).1 := by
  intro d m m'
  have hm : m.Consistent id d artifacts := consistent_asked id d artifacts earlier
  have hm' : m'.Consistent id d artifacts := consistent_asked id d artifacts later
  obtain ⟨-, hreach, hall⟩ := hm.mem_hierarchy name
  obtain ⟨-, hreach', hall'⟩ := hm'.mem_hierarchy name
  refine ⟨fun hloops => ?_, fun other ho => ?_⟩
  · rw [← @Descriptor.extends_ofLists declarations dependencies excludes] at hloops
    -- each history gives all that the name reaches, and nothing else
    have heq : (m.hierarchy name).1 = (m'.hierarchy name).1 := by
      refine ExtTreeSet.ext_mem fun other => ⟨fun ho => ?_, fun ho => ?_⟩
      · exact hall' hloops other (hreach other ho)
      · exact hall hloops other (hreach' other ho)
    refine ⟨heq, ?_⟩
    rw [hm.configuration?_eq, hm'.configuration?_eq, heq]
  · exact (d.mem_hierarchy_empty_iff name other).2 (hreach other ho)

/-- A name that extends itself has one hierarchy, asked at first or late. -/
theorem answers_agree_sample :
    LoopsOnly (Extends Sample.ring) "ring" ∧
      ((asked (.module ⟨"org", "app", "1.0"⟩) (.ofLists Sample.ring [] []) ∅ []).hierarchy "ring").1 =
        ((asked (.module ⟨"org", "app", "1.0"⟩) (.ofLists Sample.ring [] []) ∅
          [.hierarchy "app", .configuration "ring"]).hierarchy "ring").1 := by
  obtain ⟨hagree, -⟩ := answers_agree (.module ⟨"org", "app", "1.0"⟩) Sample.ring [] [] ∅ []
    [.hierarchy "app", .configuration "ring"] "ring"
  exact ⟨Sample.loopsOnly_ring "ring", (hagree (Sample.loopsOnly_ring "ring")).1⟩

/-- **On a cycle history shows**: the walk from the first name keeps a hierarchy for the second one that lacks the
first one's other parent. -/
theorem not_forall_answers_agree :
    ¬∀ (id : ComponentId) (declarations : List Configuration) (dependencies : List Dependency)
      (excludes : List ExcludeRule) (artifacts : DeclaredArtifacts) (earlier later : List Query) (name : String),
      ((asked id (.ofLists declarations dependencies excludes) artifacts earlier).hierarchy name).1 =
        ((asked id (.ofLists declarations dependencies excludes) artifacts later).hierarchy name).1 := by
  intro h
  have hlacks : "c" ∉ ((asked (.module ⟨"org", "app", "1.0"⟩) (.ofLists Sample.cycle [] []) ∅
      [.hierarchy "a"]).hierarchy "b").1 := by
    decide +kernel
  have hhas : "c" ∈ ((asked (.module ⟨"org", "app", "1.0"⟩) (.ofLists Sample.cycle [] []) ∅
      []).hierarchy "b").1 := by
    decide +kernel
  rw [h _ _ _ _ _ _ [] _] at hlacks
  exact hlacks hhas

end ComponentMetadata

end ResolutionLog
