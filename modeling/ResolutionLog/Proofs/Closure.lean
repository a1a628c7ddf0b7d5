import ResolutionLog.Descriptor.View
import ResolutionLog.Proofs.Declarations

/-! # Hierarchies without cycles

Hierarchies are kept in one table, which is shared by all walks and all questions, also by those that ran into
cycles. What is kept for a name can then be too little, but only if a cycle can be reached from the name. For a
name that is free of cycles, whatever is kept is everything that it reaches, and so every answer is:
`ComponentMetadata.hierarchy_eq_closure`.

The invariant is `Descriptor.Sound`. A walk keeps it as long as every configuration that the walk is working
on leads to the name that it has come to (`Descriptor.walk_sound`). So what a walk passes over, because it is
working on it, lies on a cycle through that name. -/

namespace ResolutionLog

open Relation Std

namespace Descriptor

variable {d : Descriptor}

/-! ## Walks -/

/-- A set is what a name reaches, if the name is free of cycles. -/
def Closes (d : Descriptor) (name : String) (found : NameSet) : Prop :=
  CycleFree d.Extends name → ∀ other, other ∈ found ↔ ReflTransGen d.Extends name other

/-- What is kept for a name is what it reaches, if it is free of cycles. -/
def Sound (d : Descriptor) (table : HierarchyTable) : Prop :=
  ∀ name found, table[name]? = some found → d.Closes name found

/-- An empty table is sound. -/
theorem sound_empty (d : Descriptor) : d.Sound ∅ := by
  intro name found h
  rw [ExtTreeMap.getElem?_empty] at h
  cases h

/-- A table stays sound when a closure is entered for its name. -/
theorem Sound.insert {table : HierarchyTable} {name : String} {found : NameSet} (h : d.Sound table)
    (hf : d.Closes name found) : d.Sound (table.insert name found) := by
  intro other set hset
  rw [ExtTreeMap.getElem?_insert] at hset
  split at hset
  · next heq =>
    obtain rfl := LawfulEqCmp.compare_eq_iff_eq.1 heq
    obtain rfl := Option.some.inj hset
    exact hf
  · exact h other set hset

/-- A name is the only member of the set made of it. -/
theorem mem_ofList_singleton {name other : String} : other ∈ (.ofList [name] : NameSet) ↔ other = name := by
  rw [ExtTreeSet.mem_ofList, List.contains_iff_mem, List.mem_singleton]

/-- What a walk does with one parent: pass over it, or take over what is found for it. -/
def climb (d : Descriptor) (rest : NameSet) (state : NameSet × HierarchyTable) (parent : String) :
    NameSet × HierarchyTable :=
  if parent ∈ d.configurations ∧ parent ∉ rest then (state.1.insert parent, state.2)
  else (state.1 ∪ (d.walk rest parent state.2).1, (d.walk rest parent state.2).2)

/-- What a walk has when it has done with all parents of a name. -/
def climbAll (d : Descriptor) (rest : NameSet) (name : String) (table : HierarchyTable) :
    NameSet × HierarchyTable :=
  (d.parents name).foldl (d.climb rest) (.ofList [name], table)

/-- A name that is not in the table and has not been visited is climbed from, and what is found is entered. -/
theorem walk_of_mem {unvisited : NameSet} {name : String} {table : HierarchyTable}
    (hn : table[name]? = none) (hm : name ∈ unvisited) :
    d.walk unvisited name table =
      ((d.climbAll (unvisited.erase name) name table).1,
        (d.climbAll (unvisited.erase name) name table).2.insert name
          (d.climbAll (unvisited.erase name) name table).1) := by
  rw [walk, hn]
  simp only [dif_pos hm]
  rfl

/-- A name that is being visited stands for itself alone, and this is entered. -/
theorem walk_of_not_mem {unvisited : NameSet} {name : String} {table : HierarchyTable}
    (hn : table[name]? = none) (hm : name ∉ unvisited) :
    d.walk unvisited name table = (.ofList [name], table.insert name (.ofList [name])) := by
  rw [walk, hn]
  simp only [dif_neg hm]

section Path

variable {unvisited : NameSet} {name : String}

/-- What a walk passes over leads back to the name that it has come to. -/
theorem not_cycleFree_of_passed
    (hpath : ∀ working ∈ d.names, working ∉ unvisited → ReflTransGen d.Extends working name) {parent : String} (hextends : d.Extends name parent) (hdeclared : parent ∈ d.configurations)
    (hpassed : parent ∉ unvisited) : ¬CycleFree d.Extends name := by
  intro hfree
  have hnames : parent ∈ d.names := by
    rw [mem_names, configuration?, ← ExtTreeMap.mem_iff_isSome_getElem?]
    exact hdeclared
  exact hfree name .refl (.head' hextends (hpath parent hnames hpassed))

variable (hpath : ∀ working ∈ d.names, working ∉ unvisited → TransGen d.Extends working name)

include hpath

/-- When a walk enters a name, all that it is working on leads to this name. -/
theorem reach_of_not_mem_erase : ∀ working ∈ d.names, working ∉ unvisited.erase name →
    ReflTransGen d.Extends working name := by
  intro working hw hout
  rw [ExtTreeSet.mem_erase, not_and'] at hout
  by_cases hu : working ∈ unvisited
  · rw [LawfulEqCmp.compare_eq_iff_eq.1 (not_not.1 (hout hu))]
  · exact (hpath working hw hu).to_reflTransGen

/-- A name that a walk does not enter reaches itself alone, or lies on a cycle. -/
theorem closes_of_not_mem (hm : name ∉ unvisited) : d.Closes name (.ofList [name]) := by
  intro hfree other
  -- a declared name that is not unvisited is one that the walk is working on
  have hundeclared : name ∉ d.names := fun hdeclared => hfree name .refl (hpath name hdeclared hm)
  rw [mem_ofList_singleton, ReflTransGen.cases_head_iff, eq_comm]
  constructor
  · exact .inl
  · rintro (heq | ⟨parent, hparent, -⟩)
    · exact heq
    · exact absurd (mem_names_of_mem_parents hparent) hundeclared

end Path

/-- A name reaches itself and all that its parents reach. -/
theorem closes_of_parents {name : String} {own : NameSet} (h : CycleFree d.Extends name → ∀ other,
    other ∈ own ↔ other ∈ (.ofList [name] : NameSet) ∨ ∃ parent ∈ d.parents name,
      ReflTransGen d.Extends parent other) : d.Closes name own := by
  intro hfree other
  rw [h hfree, mem_ofList_singleton, ReflTransGen.cases_head_iff, eq_comm]
  rfl

/-- What is passed over lies on a cycle, so a name that is free of cycles is given all that its parents
reach. -/
theorem sound_foldl_climb {rest : NameSet} {name : String}
    (hpath : ∀ working ∈ d.names, working ∉ rest → ReflTransGen d.Extends working name)
    (hwalk : ∀ parent table, d.Extends name parent → d.Sound table →
      d.Sound (d.walk rest parent table).2 ∧ d.Closes parent (d.walk rest parent table).1)
    {parents : List String} (hparents : ∀ parent ∈ parents, d.Extends name parent)
    (start : NameSet) {table : HierarchyTable} (hs : d.Sound table) :
    d.Sound (parents.foldl (d.climb rest) (start, table)).2 ∧
      (CycleFree d.Extends name → ∀ other,
        other ∈ (parents.foldl (d.climb rest) (start, table)).1 ↔
          other ∈ start ∨ ∃ parent ∈ parents, ReflTransGen d.Extends parent other) := by
  induction parents generalizing start table with
  | nil =>
    refine ⟨hs, fun _ other => ?_⟩
    constructor
    · exact .inl
    · rintro (h | ⟨parent, hm, -⟩)
      · exact h
      · exact absurd hm List.not_mem_nil
  | cons parent parents ih =>
    have hextends := hparents parent List.mem_cons_self
    have hothers : ∀ other ∈ parents, d.Extends name other :=
      fun other hm => hparents other (List.mem_cons_of_mem _ hm)
    rw [List.foldl_cons, climb]
    split
    · next hpassed =>
      refine ⟨(ih hothers _ hs).1, fun hfree => ?_⟩
      exact absurd hfree (not_cycleFree_of_passed hpath hextends hpassed.1 hpassed.2)
    · obtain ⟨hsound, hcloses⟩ := hwalk parent table hextends hs
      obtain ⟨hafter, hmembers⟩ := ih hothers (start ∪ (d.walk rest parent table).1) hsound
      refine ⟨hafter, fun hfree other => ?_⟩
      rw [hmembers hfree, ExtTreeSet.mem_union_iff, hcloses (hfree.of_step hextends), or_assoc]
      simp only [List.mem_cons, exists_eq_or_imp]

/-- **A walk keeps the table sound**, and what it finds for a name that is free of cycles is everything that
the name reaches. -/
theorem walk_sound {unvisited : NameSet} {name : String} {table : HierarchyTable}
    (hpath : ∀ working ∈ d.names, working ∉ unvisited → TransGen d.Extends working name)
    (hs : d.Sound table) :
    d.Sound (d.walk unvisited name table).2 ∧ d.Closes name (d.walk unvisited name table).1 := by
  -- fewer configurations are unvisited when the walk goes on to the parents
  induction hn : unvisited.size using Nat.strongRecOn generalizing unvisited name table with
  | ind n ih =>
    cases hkept : table[name]? with
    | some found =>
      rw [walk_of_kept hkept]
      exact ⟨hs, hs name found hkept⟩
    | none =>
      by_cases hm : name ∈ unvisited
      · have hrest := reach_of_not_mem_erase hpath
        have hwalk : ∀ parent table, d.Extends name parent → d.Sound table →
            d.Sound (d.walk (unvisited.erase name) parent table).2 ∧
              d.Closes parent (d.walk (unvisited.erase name) parent table).1 := by
          intro parent table hextends hs
          exact ih _ (hn ▸ size_erase_lt hm) (fun working hw hout => .tail' (hrest working hw hout) hextends)
            hs rfl
        obtain ⟨hsound, hmembers⟩ :=
          sound_foldl_climb hrest hwalk (fun _ hparent => hparent) (.ofList [name]) hs
        have hcloses : d.Closes name (d.climbAll (unvisited.erase name) name table).1 :=
          closes_of_parents hmembers
        rw [walk_of_mem hkept hm]
        exact ⟨hsound.insert hcloses, hcloses⟩
      · have hcloses := closes_of_not_mem hpath hm
        rw [walk_of_not_mem hkept hm]
        exact ⟨hs.insert hcloses, hcloses⟩

/-- **A hierarchy is the closure** of a name that is free of cycles. -/
theorem hierarchy_sound (name : String) {table : HierarchyTable} (hs : d.Sound table) :
    d.Sound (d.hierarchy name table).2 ∧ d.Closes name (d.hierarchy name table).1 :=
  walk_sound (fun _ hw hout => absurd hw hout) hs

end Descriptor

/-! ## Questions -/

namespace ComponentMetadata

/-- What a component is asked. -/
inductive Query where
  | hierarchy (name : String)
  | configuration (name : String)
deriving DecidableEq, Repr

/-- The component after a question. -/
def ask (m : ComponentMetadata) : Query → ComponentMetadata
  | .hierarchy name => (m.hierarchy name).2
  | .configuration name => (m.configuration? name).2

/-- The component after some questions. -/
def after (m : ComponentMetadata) (history : List Query) : ComponentMetadata := history.foldl ask m

/-- What is kept in a component is sound, and views are kept of declared names only. -/
structure Sound (d : Descriptor) (m : ComponentMetadata) : Prop where
  descriptor_eq : m.descriptor = d
  hierarchies : d.Sound m.hierarchies
  views : ∀ name view, m.views[name]? = some view → name ∈ d.names ∧ d.Closes name view.hierarchy

variable {d : Descriptor} {m : ComponentMetadata}

/-- A component that has answered nothing is sound. -/
theorem sound_fresh (id : ComponentId) (d : Descriptor) (artifacts : DeclaredArtifacts) :
    (fresh id d artifacts).Sound d where
  descriptor_eq := rfl
  hierarchies := d.sound_empty
  views := by
    intro name view h
    rw [fresh, ExtTreeMap.getElem?_empty] at h
    cases h

/-- The answer to a question about a hierarchy, and what is kept after it. -/
theorem Sound.hierarchy (h : m.Sound d) (name : String) :
    (m.hierarchy name).2.Sound d ∧ d.Closes name (m.hierarchy name).1 := by
  obtain ⟨rfl, hierarchies, views⟩ := h
  obtain ⟨hsound, hcloses⟩ := Descriptor.hierarchy_sound name hierarchies
  exact ⟨⟨rfl, hsound, views⟩, hcloses⟩

/-- The answer to a question about a configuration, and what is kept after it. -/
theorem Sound.configuration? (h : m.Sound d) (name : String) :
    (m.configuration? name).2.Sound d ∧
      ((m.configuration? name).1.isSome = true ↔ name ∈ d.names) ∧
      ∀ view, (m.configuration? name).1 = some view → d.Closes name view.hierarchy := by
  cases hkept : m.views[name]? with
  | some view =>
    obtain ⟨hdeclared, hcloses⟩ := h.views name view hkept
    rw [configuration?_of_kept hkept]
    refine ⟨h, ⟨fun _ => hdeclared, fun _ => rfl⟩, ?_⟩
    rintro _ ⟨⟩
    exact hcloses
  | none =>
    rw [ComponentMetadata.configuration?, hkept, h.descriptor_eq, Descriptor.mem_names]
    cases hdeclared : d.configuration? name with
    | none =>
      refine ⟨h, ⟨fun hs => hs, fun hs => hs⟩, ?_⟩
      rintro _ ⟨⟩
    | some c =>
      -- the view is made of the hierarchy that is found now, and is kept
      obtain ⟨hsound, hcloses⟩ := h.hierarchy name
      refine ⟨⟨hsound.descriptor_eq, hsound.hierarchies, fun other view hview => ?_⟩,
        ⟨fun _ => rfl, fun _ => rfl⟩, ?_⟩
      · rw [ExtTreeMap.getElem?_insert] at hview
        split at hview
        · next heq =>
          obtain rfl := LawfulEqCmp.compare_eq_iff_eq.1 heq
          obtain rfl := Option.some.inj hview
          exact ⟨by rw [Descriptor.mem_names, hdeclared]; rfl, hcloses⟩
        · exact hsound.views other view hview
      · rintro _ ⟨⟩
        exact hcloses

/-- **What is kept stays sound**, whatever the component is asked. -/
theorem Sound.after (h : m.Sound d) (history : List Query) : (m.after history).Sound d := by
  induction history generalizing m with
  | nil => exact h
  | cons query history ih =>
    refine ih ?_
    cases query with
    | hierarchy name => exact (h.hierarchy name).1
    | configuration name => exact (h.configuration? name).1

/-- **The hierarchy of a name that is free of cycles is all that it reaches**, whatever the component has been
asked before, also about names on cycles. A configuration is found just if its name is declared, and if this is
free of cycles, that is its hierarchy. -/
theorem hierarchy_eq_closure (id : ComponentId) (declarations : List Configuration)
    (dependencies : List Dependency) (excludes : List ExcludeRule) (artifacts : DeclaredArtifacts)
    (history : List Query) (name : String) :
    (CycleFree (Extends declarations) name → ∀ other,
      other ∈ (((fresh id (.ofLists declarations dependencies excludes) artifacts).after
          history).hierarchy name).1 ↔
        ReflTransGen (Extends declarations) name other) ∧
    ((((fresh id (.ofLists declarations dependencies excludes) artifacts).after
        history).configuration? name).1.isSome = true ↔ ∃ c ∈ declarations, c.name = name) ∧
    (CycleFree (Extends declarations) name → ∀ view,
      (((fresh id (.ofLists declarations dependencies excludes) artifacts).after
          history).configuration? name).1 = some view → ∀ other,
        other ∈ view.hierarchy ↔ ReflTransGen (Extends declarations) name other) := by
  have hsound := (sound_fresh id (.ofLists declarations dependencies excludes) artifacts).after history
  obtain ⟨-, hfound⟩ := hsound.hierarchy name
  obtain ⟨-, hdeclared, hviewed⟩ := hsound.configuration? name
  rw [Descriptor.mem_names_ofLists_iff] at hdeclared
  rw [← @Descriptor.extends_ofLists declarations dependencies excludes]
  exact ⟨hfound, hdeclared, fun hfree view hview => hviewed view hview hfree⟩

end ComponentMetadata

namespace Sample

/-- A configuration that extends an undeclared name, and one that extends itself and the first. -/
def ring : List Configuration :=
  [⟨"app", ["lib"], true, true⟩, ⟨"ring", ["ring", "app"], true, true⟩]

/-- What extends what in the sample: the application extends the library, and all else starts from the ring. -/
theorem extends_ring {name parent : String} (h : Extends ring name parent) :
    (name = "app" ∧ parent = "lib") ∨ name = "ring" := by
  obtain ⟨c, hc, rfl, hparent⟩ := h.exists_mem
  rw [ring, List.mem_cons, List.mem_singleton] at hc
  rcases hc with rfl | rfl
  · exact .inl ⟨rfl, List.mem_singleton.1 hparent⟩
  · exact .inr rfl

/-- The application extends the library. -/
theorem extends_ring_app : Extends ring "app" "lib" := by
  refine ⟨⟨"app", ["lib"], true, true⟩, ⟨[], _, rfl, ?_⟩, rfl, List.mem_singleton_self _⟩
  intro other hother
  rw [List.mem_singleton.1 hother]
  decide

/-- From the first configuration only the undeclared name is reached. -/
theorem reach_ring {name : String} (h : ReflTransGen (Extends ring) "app" name) :
    name = "app" ∨ name = "lib" := by
  induction h with
  | refl => exact .inl rfl
  | tail _ hstep ih =>
    rcases extends_ring hstep with ⟨-, rfl⟩ | rfl
    · exact .inr rfl
    · simp at ih

/-- No cycle can be reached from the application, though there is one elsewhere. -/
theorem cycleFree_ring : CycleFree (Extends ring) "app" := by
  intro name hreach hcycle
  obtain ⟨next, hstep, hback⟩ := TransGen.head'_iff.1 hcycle
  rcases extends_ring hstep with ⟨rfl, rfl⟩ | rfl
  · -- the undeclared name leads nowhere
    rcases ReflTransGen.cases_head_iff.1 hback with h | ⟨other, hlib, -⟩
    · simp at h
    · rcases extends_ring hlib with ⟨h, -⟩ | h <;> simp at h
  · rcases reach_ring hreach with h | h <;> simp at h

end Sample

namespace ComponentMetadata

/-- A question about the cycle comes before, and the hierarchy of the first configuration is right. -/
theorem hierarchy_eq_closure_sample :
    CycleFree (Extends Sample.ring) "app" ∧
      "lib" ∈ (((fresh (.module ⟨"org", "app", "1.0"⟩) (.ofLists Sample.ring [] []) ∅).after
        [.hierarchy "ring"]).hierarchy "app").1 ∧
      "ring" ∉ (((fresh (.module ⟨"org", "app", "1.0"⟩) (.ofLists Sample.ring [] []) ∅).after
        [.hierarchy "ring"]).hierarchy "app").1 := by
  obtain ⟨hmembers, -⟩ := hierarchy_eq_closure (.module ⟨"org", "app", "1.0"⟩) Sample.ring [] [] ∅
    [.hierarchy "ring"] "app"
  refine ⟨Sample.cycleFree_ring, ?_, ?_⟩
  · rw [hmembers Sample.cycleFree_ring]
    exact .single Sample.extends_ring_app
  · rw [hmembers Sample.cycleFree_ring]
    intro hreach
    rcases Sample.reach_ring hreach with h | h <;> simp at h

end ComponentMetadata

end ResolutionLog
