import ResolutionLog.Proofs.Closure

/-! # What a walk up the hierarchy does

The rules of `Descriptor.Collects` tell what becomes of some names, one after the other: a name is passed over
because the walk is working on it, or its hierarchy is kept already, or the walk enters it. Nothing in the rules
speaks of an end. There always is one (`Descriptor.collects_hierarchy`), and only one (`Collects.unique`).

Everything else about walks is shown by induction over the rules. What is kept stays (`Collects.keeps`), and never
goes beyond what a name reaches (`Collects.grounded`). A walk with nothing kept before it finds all that its name
reaches, whatever cycles there are, since the names that it has been to are closed under extension
(`Collects.closed`) and are all found (`Collects.mem_of_mem_table`). What it keeps for the others can lack
something, but only for names that reach a cycle through several names (`Collects.complete`). -/

namespace ResolutionLog

open Relation Std

namespace Descriptor

/-! ## The rules -/

/-- **The course of a walk** over some names, from what is found and what is kept at first to what is found and
what is kept in the end. The walk is in the middle of the names in `working`. -/
inductive Collects (d : Descriptor) : NameSet → List String → NameSet → HierarchyTable → NameSet →
    HierarchyTable → Prop where
  /-- No names are left. -/
  | done {working found : NameSet} {table : HierarchyTable} : Collects d working [] found table found table
  /-- The walk is in the middle of the name, which so lies on a cycle. The name alone is found. -/
  | passed {working found found' : NameSet} {name : String} {names : List String}
      {table table' : HierarchyTable} (mem : name ∈ working)
      (rest : Collects d working names (found.insert name) table found' table') :
      Collects d working (name :: names) found table found' table'
  /-- A hierarchy is kept for the name. -/
  | kept {working found found' known : NameSet} {name : String} {names : List String}
      {table table' : HierarchyTable} (not_mem : name ∉ working) (known_eq : table[name]? = some known)
      (rest : Collects d working names (found ∪ known) table found' table') :
      Collects d working (name :: names) found table found' table'
  /-- The walk enters the name and goes over all that it extends. What it finds is kept for the name, unless
  something has been kept for it in the meantime. -/
  | entered {working found found' own : NameSet} {name : String} {names : List String}
      {table table' inner : HierarchyTable} (not_mem : name ∉ working) (unknown : name ∉ table)
      (climb : Collects d (working.insert name) (d.parents name) (.ofList [name]) table own inner)
      (rest : Collects d working names (found ∪ inner[name]?.getD own) (inner.insertIfNew name own) found' table') :
      Collects d working (name :: names) found table found' table'

/-- The members of a set with one more name. -/
theorem mem_insert_name {names : NameSet} {name other : String} :
    other ∈ names.insert name ↔ name = other ∨ other ∈ names := by
  rw [ExtTreeSet.mem_insert, LawfulEqCmp.compare_eq_iff_eq]

/-- The names of a table with one more entry. -/
theorem mem_insertIfNew_name {table : HierarchyTable} {name other : String} {own : NameSet} :
    other ∈ table.insertIfNew name own ↔ name = other ∨ other ∈ table := by
  rw [ExtTreeMap.mem_insertIfNew, LawfulEqCmp.compare_eq_iff_eq]

/-- For a new name it does not matter that earlier entries are spared. -/
theorem insertIfNew_eq_insert {α : Type} {table : ExtTreeMap String α} {name : String} (h : name ∉ table) (own : α) :
    table.insertIfNew name own = table.insert name own := by
  refine ExtTreeMap.ext_getElem? fun {other} => ?_
  simp only [ExtTreeMap.getElem?_insertIfNew, ExtTreeMap.getElem?_insert, h, not_false_eq_true, and_true]

/-- What a table has for a name after an entry was made. -/
theorem getElem?_insert_name {table : HierarchyTable} {name other : String} {own : NameSet} :
    (table.insert name own)[other]? = if name = other then some own else table[other]? := by
  simp only [ExtTreeMap.getElem?_insert, LawfulEqCmp.compare_eq_iff_eq]

/-- The empty set adds nothing to names. -/
theorem empty_union (names : NameSet) : ∅ ∪ names = names := by
  refine ExtTreeSet.ext_mem fun other => ?_
  rw [ExtTreeSet.mem_union_iff, or_iff_right ExtTreeSet.not_mem_empty]

variable {d : Descriptor} {working found found' : NameSet} {names : List String}
  {table table' : HierarchyTable}

/-! ## Where a walk is -/

/-- **A walk divides the declared names** into those that it is working on and those that are unvisited. -/
structure Divides (d : Descriptor) (unvisited working : NameSet) : Prop where
  mem_unvisited_iff : ∀ other, other ∈ unvisited ↔ other ∈ d.names ∧ other ∉ working
  declared : ∀ other ∈ working, other ∈ d.names

/-- Nothing has been visited when a walk starts. -/
theorem divides_names (d : Descriptor) : d.Divides d.names ∅ where
  mem_unvisited_iff := fun _ => (and_iff_left ExtTreeSet.not_mem_empty).symm
  declared := fun _ h => absurd h ExtTreeSet.not_mem_empty

namespace Divides

variable {unvisited : NameSet} (h : d.Divides unvisited working)

include h

/-- A walk enters an unvisited name. -/
theorem enter {name : String} (hm : name ∈ unvisited) :
    d.Divides (unvisited.erase name) (working.insert name) where
  mem_unvisited_iff := by
    intro other
    rw [ExtTreeSet.mem_erase, h.mem_unvisited_iff, mem_insert_name, Ne, LawfulEqCmp.compare_eq_iff_eq, not_or]
    exact and_left_comm
  declared := by
    intro other ho
    rcases mem_insert_name.1 ho with rfl | ho
    · exact ((h.mem_unvisited_iff name).1 hm).1
    · exact h.declared other ho

/-- A walk is working on what it would pass over. -/
theorem mem_working_iff (parent : String) :
    parent ∈ working ↔ parent ∈ d.configurations ∧ parent ∉ unvisited := by
  rw [h.mem_unvisited_iff, ExtTreeMap.mem_iff_isSome_getElem?, ← configuration?, ← mem_names]
  constructor
  · exact fun hw => ⟨h.declared parent hw, fun hout => hout.2 hw⟩
  · rintro ⟨hp, hin⟩
    by_contra hout
    exact hin ⟨hp, hout⟩

/-- An undeclared name has no parents, so that its walk ends at once. -/
theorem collects_parents {name : String} (hm : name ∉ unvisited) (hn : name ∉ working)
    (table : HierarchyTable) :
    d.Collects (working.insert name) (d.parents name) (.ofList [name]) table (.ofList [name]) table := by
  have hparents : d.parents name = [] := by
    refine List.eq_nil_iff_forall_not_mem.2 fun parent hp => hm ((h.mem_unvisited_iff name).2 ⟨?_, hn⟩)
    exact mem_names_of_mem_parents hp
  rw [hparents]
  exact .done

end Divides

namespace Collects

/-! ## What stays -/

/-- What has been found is not lost. -/
theorem subset (h : d.Collects working names found table found' table') {other : String}
    (hm : other ∈ found) : other ∈ found' := by
  induction h with
  | done => exact hm
  | passed mem rest ih => exact ih (mem_insert_name.2 (.inr hm))
  | kept not_mem known_eq rest ih => exact ih (ExtTreeSet.mem_union_iff.2 (.inl hm))
  | entered not_mem unknown climb rest ihClimb ihRest => exact ihRest (ExtTreeSet.mem_union_iff.2 (.inl hm))

/-- **What is kept stays** as it is. -/
theorem keeps (h : d.Collects working names found table found' table') {name : String} {known : NameSet}
    (hk : table[name]? = some known) : table'[name]? = some known := by
  induction h with
  | done => exact hk
  | passed mem rest ih => exact ih hk
  | kept not_mem known_eq rest ih => exact ih hk
  | @entered _ _ _ own other _ _ _ inner not_mem unknown climb rest ihClimb ihRest =>
    refine ihRest ?_
    have hinner := ihClimb hk
    have hmem : name ∈ inner := ExtTreeMap.mem_iff_isSome_getElem?.2 (by rw [hinner]; rfl)
    rw [ExtTreeMap.getElem?_insertIfNew, if_neg, hinner]
    rintro ⟨heq, hnew⟩
    rw [LawfulEqCmp.compare_eq_iff_eq.1 heq] at hnew
    exact hnew hmem

/-- Nothing is kept for a name that the walk is in the middle of. -/
theorem not_mem_of_mem_working (h : d.Collects working names found table found' table') {name : String}
    (hw : name ∈ working) (hn : name ∉ table) : name ∉ table' := by
  induction h with
  | done => exact hn
  | passed mem rest ih => exact ih hw hn
  | kept not_mem known_eq rest ih => exact ih hw hn
  | entered not_mem unknown climb rest ihClimb ihRest =>
    refine ihRest hw ?_
    rw [mem_insertIfNew_name, not_or]
    refine ⟨?_, ihClimb (mem_insert_name.2 (.inr hw)) hn⟩
    rintro rfl
    exact not_mem hw

/-- When the walk leaves a name that it has entered, nothing is kept for it yet. -/
theorem not_mem_inner {name : String} {own : NameSet} {inner : HierarchyTable} (unknown : name ∉ table)
    (climb : d.Collects (working.insert name) (d.parents name) (.ofList [name]) table own inner) :
    name ∉ inner :=
  climb.not_mem_of_mem_working (mem_insert_name.2 (.inl rfl)) unknown

/-! ## The end -/

/-- **The rules leave no choice.** -/
theorem unique (h : d.Collects working names found table found' table') {found'' : NameSet}
    {table'' : HierarchyTable} (h' : d.Collects working names found table found'' table'') :
    found' = found'' ∧ table' = table'' := by
  -- the rules exclude one another by what has been found and what is known of the first name
  induction h generalizing found'' table'' with
  | done =>
    cases h'
    exact ⟨rfl, rfl⟩
  | passed mem rest ih =>
    cases h' with
    | passed mem' rest' => exact ih rest'
    | kept not_mem known_eq rest' => exact absurd mem not_mem
    | entered not_mem unknown climb rest' => exact absurd mem not_mem
  | kept not_mem known_eq rest ih =>
    cases h' with
    | passed mem rest' => exact absurd mem not_mem
    | kept not_mem' known_eq' rest' =>
      obtain rfl := Option.some.inj (known_eq.symm.trans known_eq')
      exact ih rest'
    | entered not_mem' unknown climb rest' =>
      rw [ExtTreeMap.getElem?_eq_none unknown] at known_eq
      cases known_eq
  | entered not_mem unknown climb rest ihClimb ihRest =>
    cases h' with
    | passed mem rest' => exact absurd mem not_mem
    | kept not_mem' known_eq rest' =>
      rw [ExtTreeMap.getElem?_eq_none unknown] at known_eq
      cases known_eq
    | entered not_mem' unknown' climb' rest' =>
      obtain ⟨rfl, rfl⟩ := ihClimb climb'
      exact ihRest rest'

/-- What the program does with the parents of a name follows the rules, if what it does with one of them does. -/
theorem foldl_climb {rest : NameSet}
    (hworking : ∀ parent, parent ∈ working ↔ parent ∈ d.configurations ∧ parent ∉ rest)
    (hwalk : ∀ {parent names found table found' table'}, parent ∉ working →
      d.Collects working names (found ∪ (d.walk rest parent table).1) (d.walk rest parent table).2 found' table' →
      d.Collects working (parent :: names) found table found' table')
    (parents : List String) (found : NameSet) (table : HierarchyTable) :
    d.Collects working parents found table (parents.foldl (d.climb rest) (found, table)).1
      (parents.foldl (d.climb rest) (found, table)).2 := by
  induction parents generalizing found table with
  | nil => exact .done
  | cons parent parents ih =>
    rw [List.foldl_cons, climb]
    split
    · next hpassed => exact .passed ((hworking parent).2 hpassed) (ih _ _)
    · next hvisited => exact hwalk (mt (hworking parent).1 hvisited) (ih _ _)

/-- What the program does with a name follows the rules. -/
theorem of_walk {unvisited : NameSet} {name : String} (hd : d.Divides unvisited working) (hn : name ∉ working)
    (rest : d.Collects working names (found ∪ (d.walk unvisited name table).1) (d.walk unvisited name table).2
      found' table') :
    d.Collects working (name :: names) found table found' table' := by
  -- fewer configurations are unvisited when the walk goes on to the parents
  induction hs : unvisited.size using Nat.strongRecOn
    generalizing unvisited working name names found table found' table' with
  | ind n ih =>
    cases hkept : table[name]? with
    | some known =>
      rw [walk_of_kept hkept] at rest
      exact .kept hn hkept rest
    | none =>
      have hunknown : name ∉ table := by
        rw [ExtTreeMap.mem_iff_isSome_getElem?, hkept]
        exact Bool.false_ne_true
      by_cases hm : name ∈ unvisited
      · have hclimb := foldl_climb (hd.enter hm).mem_working_iff
          (fun hp hrest => ih _ (hs ▸ size_erase_lt hm) (hd.enter hm) hp hrest rfl)
          (d.parents name) (.ofList [name]) table
        have hinner := not_mem_inner hunknown hclimb
        refine .entered hn hunknown hclimb ?_
        rw [ExtTreeMap.getElem?_eq_none hinner, Option.getD_none, insertIfNew_eq_insert hinner]
        rw [walk_of_mem hkept hm] at rest
        exact rest
      · refine .entered hn hunknown (hd.collects_parents hm hn table) ?_
        rw [ExtTreeMap.getElem?_eq_none hunknown, Option.getD_none, insertIfNew_eq_insert hunknown]
        rw [walk_of_not_mem hkept hm] at rest
        exact rest

end Collects

/-- What a walk finds for a single name is kept for it. -/
theorem Collects.kept_of_singleton {name : String}
    (h : d.Collects working [name] ∅ table found' table') (hn : name ∉ working) :
    table'[name]? = some found' := by
  cases h with
  | passed mem rest => exact absurd mem hn
  | kept not_mem known_eq rest =>
    cases rest
    rw [known_eq, empty_union]
  | entered not_mem unknown climb rest =>
    have hfresh := not_mem_inner unknown climb
    cases rest
    rw [insertIfNew_eq_insert hfresh, getElem?_insert_name, if_pos rfl, ExtTreeMap.getElem?_eq_none hfresh,
      Option.getD_none, empty_union]

/-- **A walk comes to its end**, and that is the hierarchy. -/
theorem collects_hierarchy (d : Descriptor) (name : String) (table : HierarchyTable) :
    d.Collects ∅ [name] ∅ table (d.hierarchy name table).1 (d.hierarchy name table).2 := by
  refine .of_walk d.divides_names ExtTreeSet.not_mem_empty ?_
  rw [empty_union]
  exact .done

/-! ## What is found -/

/-- What a table keeps for a name has the name, and nothing but what it reaches. -/
def Grounded (d : Descriptor) (table : HierarchyTable) : Prop :=
  ∀ name known, table[name]? = some known → name ∈ known ∧ ∀ other ∈ known, ReflTransGen d.Extends name other

/-- An empty table is grounded. -/
theorem grounded_empty (d : Descriptor) : d.Grounded ∅ := by
  intro name known h
  rw [ExtTreeMap.getElem?_empty] at h
  cases h

/-- A table stays grounded when a name gets a set with itself in it, all of which can be reached from it. -/
theorem Grounded.insert {name : String} {own : NameSet} (h : d.Grounded table) (hm : name ∈ own)
    (hreach : ∀ other ∈ own, ReflTransGen d.Extends name other) : d.Grounded (table.insert name own) := by
  intro other known hk
  rw [getElem?_insert_name] at hk
  split at hk
  · next heq =>
    obtain rfl := Option.some.inj hk
    exact heq ▸ ⟨hm, hreach⟩
  · exact h other known hk

namespace Collects

/-- **A walk finds its names**, and nothing but what they reach, and keeps no more than that. -/
theorem grounded (h : d.Collects working names found table found' table') (hg : d.Grounded table) :
    d.Grounded table' ∧ (∀ name ∈ names, name ∈ found') ∧
      ∀ other ∈ found', other ∈ found ∨ ∃ name ∈ names, ReflTransGen d.Extends name other := by
  induction h with
  | done => exact ⟨hg, fun name hm => absurd hm List.not_mem_nil, fun other hm => .inl hm⟩
  | @passed _ found _ name names _ _ mem rest ih =>
    obtain ⟨hafter, hnames, hreach⟩ := ih hg
    refine ⟨hafter, List.forall_mem_cons.2 ⟨rest.subset (mem_insert_name.2 (.inl rfl)), hnames⟩, ?_⟩
    intro other hm
    simp only [List.mem_cons, exists_eq_or_imp]
    rcases hreach other hm with hm | hm
    · rcases mem_insert_name.1 hm with rfl | hm
      · exact .inr (.inl .refl)
      · exact .inl hm
    · exact .inr (.inr hm)
  | @kept _ found _ known name names _ _ not_mem known_eq rest ih =>
    obtain ⟨hafter, hnames, hreach⟩ := ih hg
    obtain ⟨hself, hknown⟩ := hg name known known_eq
    refine ⟨hafter, List.forall_mem_cons.2 ⟨rest.subset (ExtTreeSet.mem_union_iff.2 (.inr hself)), hnames⟩, ?_⟩
    intro other hm
    simp only [List.mem_cons, exists_eq_or_imp]
    rcases hreach other hm with hm | hm
    · exact (ExtTreeSet.mem_union_iff.1 hm).imp_right fun hm => .inl (hknown other hm)
    · exact .inr (.inr hm)
  | @entered _ found _ own name names _ _ inner not_mem unknown climb rest ihClimb ihRest =>
    obtain ⟨hinner, -, hown⟩ := ihClimb hg
    -- the walk from the parents gives the name a set, which the table then has in addition
    have hfresh := not_mem_inner unknown climb
    have hself : name ∈ own := climb.subset (mem_ofList_singleton.2 rfl)
    have hreach : ∀ other ∈ own, ReflTransGen d.Extends name other := by
      intro other hm
      rcases hown other hm with hm | ⟨parent, hparent, hm⟩
      · rw [mem_ofList_singleton.1 hm]
      · exact .head hparent hm
    rw [insertIfNew_eq_insert hfresh] at ihRest
    obtain ⟨hafter, hnames, hothers⟩ := ihRest (hinner.insert hself hreach)
    rw [ExtTreeMap.getElem?_eq_none hfresh, Option.getD_none] at rest hothers
    refine ⟨hafter, List.forall_mem_cons.2 ⟨rest.subset (ExtTreeSet.mem_union_iff.2 (.inr hself)), hnames⟩, ?_⟩
    intro other hm
    simp only [List.mem_cons, exists_eq_or_imp]
    rcases hothers other hm with hm | hm
    · exact (ExtTreeSet.mem_union_iff.1 hm).imp_right fun hm => .inl (hreach other hm)
    · exact .inr (.inr hm)

/-- Every name for which something is kept on the way is found. -/
theorem mem_of_mem_table (h : d.Collects working names found table found' table') {other : String}
    (hm : other ∈ table') : other ∈ table ∨ other ∈ found' := by
  induction h with
  | done => exact .inl hm
  | passed mem rest ih => exact ih hm
  | kept not_mem known_eq rest ih => exact ih hm
  | @entered _ _ _ own name _ _ _ inner not_mem unknown climb rest ihClimb ihRest =>
    rw [ExtTreeMap.getElem?_eq_none (not_mem_inner unknown climb), Option.getD_none] at rest
    rcases ihRest hm with hm | hm
    · -- it is kept when the walk leaves the name
      rcases mem_insertIfNew_name.1 hm with rfl | hm
      · have hself : name ∈ own := climb.subset (mem_ofList_singleton.2 rfl)
        exact .inr (rest.subset (ExtTreeSet.mem_union_iff.2 (.inr hself)))
      · exact (ihClimb hm).imp_right fun hm => rest.subset (ExtTreeSet.mem_union_iff.2 (.inr hm))
    · exact .inr hm

/-- **The names that a walk has been to are closed under extension**: when it ends, it is in the middle of all
its names or something is kept for them, and of all that these extend. -/
theorem closed (h : d.Collects working names found table found' table')
    (hc : ∀ name ∈ table, ∀ parent, d.Extends name parent → parent ∈ working ∨ parent ∈ table) :
    (∀ name ∈ names, name ∈ working ∨ name ∈ table') ∧
      ∀ name ∈ table', ∀ parent, d.Extends name parent → parent ∈ working ∨ parent ∈ table' := by
  induction h with
  | done => exact ⟨fun name hm => absurd hm List.not_mem_nil, hc⟩
  | passed mem rest ih =>
    obtain ⟨hnames, hafter⟩ := ih hc
    exact ⟨List.forall_mem_cons.2 ⟨.inl mem, hnames⟩, hafter⟩
  | @kept _ _ _ known name _ _ _ not_mem known_eq rest ih =>
    obtain ⟨hnames, hafter⟩ := ih hc
    have hkept := rest.keeps known_eq
    have hmem := ExtTreeMap.mem_iff_isSome_getElem?.2 (by rw [hkept]; rfl)
    exact ⟨List.forall_mem_cons.2 ⟨.inr hmem, hnames⟩, hafter⟩
  | @entered working _ _ own name names table _ inner not_mem unknown climb rest ihClimb ihRest =>
    obtain ⟨hparents, hinner⟩ := ihClimb fun other hm parent he =>
      (hc other hm parent he).imp_left fun hw => mem_insert_name.2 (.inr hw)
    -- the name itself is kept from now on, so that the walk is in the middle of it no longer
    have hleave : ∀ parent, parent ∈ working.insert name ∨ parent ∈ inner →
        parent ∈ working ∨ parent ∈ inner.insertIfNew name own := by
      intro parent hm
      rw [mem_insertIfNew_name]
      rcases hm with hm | hm
      · exact (mem_insert_name.1 hm).symm.imp_right .inl
      · exact .inr (.inr hm)
    obtain ⟨hnames, hafter⟩ := ihRest fun other hm parent he => by
      rcases mem_insertIfNew_name.1 hm with rfl | hm
      · exact hleave parent (hparents parent he)
      · exact hleave parent (hinner other hm parent he)
    have hmem : name ∈ inner.insertIfNew name own := mem_insertIfNew_name.2 (.inl rfl)
    have hkept := rest.keeps (ExtTreeMap.getElem?_eq_some_getElem hmem)
    have hself := ExtTreeMap.mem_iff_isSome_getElem?.2 (by rw [hkept]; rfl)
    exact ⟨List.forall_mem_cons.2 ⟨.inr hself, hnames⟩, hafter⟩

end Collects

/-- **With nothing kept, a hierarchy is all that its name reaches**, through cycles too. -/
theorem mem_hierarchy_empty_iff (d : Descriptor) (name other : String) :
    other ∈ (d.hierarchy name ∅).1 ↔ ReflTransGen d.Extends name other := by
  have hcourse := d.collects_hierarchy name ∅
  obtain ⟨-, -, hreach⟩ := hcourse.grounded d.grounded_empty
  obtain ⟨hname, hclosed⟩ := hcourse.closed fun _ hm => absurd hm ExtTreeMap.not_mem_empty
  have hout : ∀ {other : String}, other ∉ (∅ : NameSet) := ExtTreeSet.not_mem_empty
  constructor
  · intro hm
    rcases hreach other hm with hm | ⟨start, hstart, hm⟩
    · exact absurd hm hout
    · rwa [List.mem_singleton.1 hstart] at hm
  · intro hr
    have hkept : other ∈ (d.hierarchy name ∅).2 := by
      induction hr with
      | refl => exact (hname name (List.mem_singleton_self name)).resolve_left hout
      | tail _ hextends ih => exact (hclosed _ ih _ hextends).resolve_left hout
    exact (hcourse.mem_of_mem_table hkept).resolve_left ExtTreeMap.not_mem_empty

/-! ## What is kept for names that reach no cycle -/

/-- A table keeps everything that a name reaches, unless this reaches a cycle through several names. -/
def Complete (d : Descriptor) (table : HierarchyTable) : Prop :=
  ∀ name known, table[name]? = some known → LoopsOnly d.Extends name →
    ∀ other, ReflTransGen d.Extends name other → other ∈ known

/-- An empty table is complete. -/
theorem complete_empty (d : Descriptor) : d.Complete ∅ := by
  intro name known h
  rw [ExtTreeMap.getElem?_empty] at h
  cases h

/-- A table stays complete when a name gets a set that has all it reaches, unless it reaches a longer cycle. -/
theorem Complete.insert {name : String} {own : NameSet} (h : d.Complete table)
    (hown : LoopsOnly d.Extends name → ∀ other, ReflTransGen d.Extends name other → other ∈ own) :
    d.Complete (table.insert name own) := by
  intro other known hk
  rw [getElem?_insert_name] at hk
  split at hk
  · next heq =>
    obtain rfl := Option.some.inj hk
    exact heq ▸ hown
  · exact h other known hk

/-- **A walk keeps the table complete** when it goes over names that are reached from where it is. If no cycle
through several names is reached from there, it finds all that the other names reach. -/
theorem Collects.complete {current : String} (h : d.Collects working names found table found' table')
    (hpath : ∀ other ∈ working, ReflTransGen d.Extends other current)
    (hnames : ∀ name ∈ names, ReflTransGen d.Extends current name) (hc : d.Complete table) :
    d.Complete table' ∧ (LoopsOnly d.Extends current → ∀ name ∈ names, name ≠ current →
      ∀ other, ReflTransGen d.Extends name other → other ∈ found') := by
  induction h generalizing current with
  | done => exact ⟨hc, fun _ name hm => absurd hm List.not_mem_nil⟩
  | @passed _ _ _ name _ _ _ mem rest ih =>
    obtain ⟨hname, hnames⟩ := List.forall_mem_cons.1 hnames
    obtain ⟨hafter, hothers⟩ := ih hpath hnames hc
    refine ⟨hafter, fun hloops => List.forall_mem_cons.2 ⟨fun hne => ?_, hothers hloops⟩⟩
    -- the walk is in the middle of the name, which so leads back to where it has come from
    exact absurd (hloops current name .refl hname (hpath name mem)).symm hne
  | @kept _ _ _ known name _ _ _ not_mem known_eq rest ih =>
    obtain ⟨hname, hnames⟩ := List.forall_mem_cons.1 hnames
    obtain ⟨hafter, hothers⟩ := ih hpath hnames hc
    refine ⟨hafter, fun hloops => List.forall_mem_cons.2 ⟨fun _ other hr => ?_, hothers hloops⟩⟩
    have hknown := hc name known known_eq (hloops.of_reach hname) other hr
    exact rest.subset (ExtTreeSet.mem_union_iff.2 (.inr hknown))
  | @entered working _ _ own name _ _ _ inner not_mem unknown climb rest ihClimb ihRest =>
    obtain ⟨hname, hnames⟩ := List.forall_mem_cons.1 hnames
    have hfresh := not_mem_inner unknown climb
    have hpath' : ∀ other ∈ working.insert name, ReflTransGen d.Extends other name := by
      intro other hm
      rcases mem_insert_name.1 hm with rfl | hm
      · exact .refl
      · exact (hpath other hm).trans hname
    obtain ⟨hinner, hparents⟩ := ihClimb hpath' (fun _ hparent => .single hparent) hc
    have hown : LoopsOnly d.Extends name → ∀ other, ReflTransGen d.Extends name other → other ∈ own := by
      intro hloops other hr
      rcases eq_or_exists_step_ne hr with rfl | ⟨parent, hparent, hne, hr⟩
      · exact climb.subset (mem_ofList_singleton.2 rfl)
      · exact hparents hloops parent hparent hne other hr
    rw [insertIfNew_eq_insert hfresh] at ihRest
    rw [ExtTreeMap.getElem?_eq_none hfresh, Option.getD_none] at rest
    obtain ⟨hafter, hothers⟩ := ihRest hpath hnames (hinner.insert hown)
    refine ⟨hafter, fun hloops => List.forall_mem_cons.2 ⟨fun _ other hr => ?_, hothers hloops⟩⟩
    exact rest.subset (ExtTreeSet.mem_union_iff.2 (.inr (hown (hloops.of_reach hname) other hr)))

end Descriptor

end ResolutionLog
