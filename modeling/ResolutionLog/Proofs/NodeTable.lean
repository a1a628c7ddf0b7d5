import ResolutionLog.Materialize
import ResolutionLog.Proofs.Stream

/-! # Tables of nodes through their nodes

A table of nodes is looked at through one view: `NodeTable.nodeAt` is the node under a key, and a key
without a node counts as a node without edges. Each way in which a record changes a table has one
equation for that view (`nodeAt_insert_isolated`, `nodeAt_modify`, `nodeAt_connect`), and each change of a
node says what becomes of its fields. Nothing else about tables is unfolded later on.

`Draft.finish_eq_ok_iff` says when a table is accepted as a graph. -/

namespace ResolutionLog

open Std

/-! ## Values of a table -/

section Values

variable {α β : Type} {cmp : α → α → Ordering} [TransCmp cmp]

/-- The values of a table are those of its entries, in the order of the keys. -/
theorem values_eq_map_toList (t : ExtTreeMap α β cmp) : t.values = t.toList.map Prod.snd := by
  have hfold : t.values = t.foldr (fun _ value values => value :: values) [] := by
    -- both sides are computed from a representative of the table
    obtain ⟨⟨q⟩⟩ := t
    induction q using Quotient.inductionOn
    rfl
  rw [hfold, ExtTreeMap.foldr_eq_foldr_toList]
  induction t.toList with
  | nil => rfl
  | cons entry entries ih => rw [List.foldr_cons, ih, List.map_cons]

/-- A value of a table stands under some key. -/
theorem mem_values_iff [LawfulEqCmp cmp] {t : ExtTreeMap α β cmp} {value : β} :
    value ∈ t.values ↔ ∃ key : α, t[key]? = some value := by
  rw [values_eq_map_toList, List.mem_map]
  constructor
  · rintro ⟨⟨key, v⟩, h, rfl⟩
    exact ⟨key, ExtTreeMap.mem_toList_iff_getElem?_eq_some.1 h⟩
  · rintro ⟨key, h⟩
    exact ⟨(key, value), ExtTreeMap.mem_toList_iff_getElem?_eq_some.2 h, rfl⟩

end Values

/-! ## Changes of a node -/

namespace ResolvedNode

variable (n : ResolvedNode) (parent child : NodeKey) (set : ArtifactSet) (requested : Selector)

/-- A child does not change the key of a node. -/
@[simp] theorem key_addChild : (n.addChild child requested).key = n.key := by
  unfold addChild
  split <;> rfl

/-- A child does not change the parents of a node. -/
@[simp] theorem parents_addChild : (n.addChild child requested).parents = n.parents := by
  unfold addChild
  split <;> rfl

/-- A child does not change what a node exposes to its parents. -/
@[simp] theorem artifactsFrom?_addChild (other : NodeKey) :
    (n.addChild child requested).artifactsFrom? other = n.artifactsFrom? other := by
  unfold addChild
  split <;> rfl

variable {n child} in
/-- A child that is added is a child afterwards, and so are all that were before. -/
@[simp] theorem mem_children_addChild {other : NodeKey} :
    other ∈ (n.addChild child requested).children ↔ other ∈ n.children ∨ child = other := by
  unfold addChild
  split
  · next h =>
    constructor
    · exact Or.inl
    · rintro (ho | rfl)
      · exact ho
      · exact h
  · rw [ExtTreeSet.mem_insert, LawfulEqCmp.compare_eq_iff_eq, or_comm]

/-- Only the first edge to a child leads to a result. -/
theorem dependencies_addChild_eq : (n.addChild child requested).dependencies =
    n.dependencies ++ if child ∈ n.children then [] else [.resolved requested child] := by
  by_cases h : child ∈ n.children
  · rw [addChild, if_pos h, if_pos h, List.append_nil]
  · rw [dependencies_addChild h, if_neg h]

/-- A parent does not change the key of a node. -/
@[simp] theorem key_addParent : (n.addParent parent set).key = n.key := rfl

/-- A parent does not change the children of a node. -/
@[simp] theorem children_addParent : (n.addParent parent set).children = n.children := rfl

variable {n parent} in
/-- A parent that is added is a parent afterwards, and so are all that were before. -/
@[simp] theorem mem_parents_addParent {other : NodeKey} :
    other ∈ (n.addParent parent set).parents ↔ other ∈ n.parents ∨ parent = other := by
  rw [addParent, ExtTreeSet.mem_insert, LawfulEqCmp.compare_eq_iff_eq, or_comm]

/-- Artifacts are added to those of one parent alone. -/
theorem artifactsFrom?_addParent (other : NodeKey) :
    (n.addParent parent set).artifactsFrom? other =
      if parent = other then some ((n.artifactsFrom? parent).getD ∅ ∪ set)
      else n.artifactsFrom? other := by
  simp only [artifactsFrom?, addParent, ExtTreeMap.getElem?_insert, LawfulEqCmp.compare_eq_iff_eq,
    ExtTreeMap.getD_eq_getD_getElem?]

/-- A node is known by its key, its parents, its children, the artifacts for each parent and the results
of its requests. -/
theorem eq_of_fields {m n : ResolvedNode} (hk : m.key = n.key)
    (hp : ∀ parent, parent ∈ m.parents ↔ parent ∈ n.parents)
    (hc : ∀ child, child ∈ m.children ↔ child ∈ n.children)
    (ha : ∀ parent, m.artifactsFrom? parent = n.artifactsFrom? parent)
    (hd : m.dependencies = n.dependencies) : m = n := by
  obtain ⟨key, parents, children, artifacts, results⟩ := m
  obtain ⟨key', parents', children', artifacts', results'⟩ := n
  obtain rfl : key = key' := hk
  obtain rfl : parents = parents' := ExtTreeSet.ext_mem hp
  obtain rfl : children = children' := ExtTreeSet.ext_mem hc
  obtain rfl : artifacts = artifacts' := ExtTreeMap.ext_getElem? fun {parent} => ha parent
  obtain rfl : results = results' := List.reverse_inj.1 hd
  rfl

end ResolvedNode

/-! ## The view -/

namespace NodeTable

/-- The node under a key; a key without a node counts as a node without edges. -/
def nodeAt (nodes : NodeTable) (key : NodeKey) : ResolvedNode := nodes[key]?.getD (.isolated key)

variable {nodes : NodeTable} {key : NodeKey}

/-- In an empty table all nodes are isolated. -/
@[simp] theorem nodeAt_empty : nodeAt ∅ key = .isolated key := by
  rw [nodeAt, ExtTreeMap.getElem?_empty, Option.getD_none]

/-- A node that is in the table is the one that stands for its key. -/
theorem nodeAt_of_getElem? {node : ResolvedNode} (h : nodes[key]? = some node) :
    nodes.nodeAt key = node := by
  rw [nodeAt, h, Option.getD_some]

/-- A registered key is found with its node. -/
theorem getElem?_of_mem (h : key ∈ nodes) : nodes[key]? = some (nodes.nodeAt key) := by
  rw [nodeAt, ExtTreeMap.getElem?_eq_some_getElem h, Option.getD_some]

/-- A key that is not registered stands for an isolated node. -/
theorem nodeAt_of_not_mem (h : key ∉ nodes) : nodes.nodeAt key = .isolated key := by
  rw [nodeAt, ExtTreeMap.getElem?_eq_none h, Option.getD_none]

/-- The values of a table are the nodes under its keys. -/
theorem values_eq_map_keys (nodes : NodeTable) : nodes.values = nodes.keys.map nodes.nodeAt := by
  rw [values_eq_map_toList, ← ExtTreeMap.map_fst_toList_eq_keys, List.map_map]
  apply List.map_congr_left
  rintro ⟨key, node⟩ hm
  exact (nodeAt_of_getElem? (ExtTreeMap.mem_toList_iff_getElem?_eq_some.1 hm)).symm

/-- A new node without edges is not seen. -/
theorem nodeAt_insert_isolated (h : key ∉ nodes) (other : NodeKey) :
    nodeAt (nodes.insert key (.isolated key)) other = nodes.nodeAt other := by
  by_cases hk : key = other
  · subst hk
    rw [nodeAt_of_not_mem h]
    exact nodeAt_of_getElem? ExtTreeMap.getElem?_insert_self
  · rw [nodeAt, ExtTreeMap.getElem?_insert, if_neg (by simpa using hk), nodeAt]

/-- A change of one node leaves the others alone. -/
theorem nodeAt_modify (h : key ∈ nodes) (f : ResolvedNode → ResolvedNode) (other : NodeKey) :
    nodeAt (nodes.modify key f) other =
      if key = other then f (nodes.nodeAt other) else nodes.nodeAt other := by
  rw [nodeAt, ExtTreeMap.getElem?_modify]
  by_cases hk : key = other
  · subst hk
    rw [if_pos rfl, if_pos (by simp), getElem?_of_mem h, Option.map_some, Option.getD_some]
  · rw [if_neg hk, if_neg (by simpa using hk), nodeAt]

/-- An edge changes its parent and its child; when they are the same node, that node twice. -/
theorem nodeAt_connect {parent child : NodeKey} (hp : parent ∈ nodes) (hc : child ∈ nodes)
    (requested : Selector) (set : ArtifactSet) (other : NodeKey) :
    (Draft.connect nodes parent child requested set).nodeAt other =
      let node := if parent = other then (nodes.nodeAt other).addChild child requested
        else nodes.nodeAt other
      if child = other then node.addParent parent set else node := by
  -- the child is changed in the table that the change of the parent leaves
  have hc' : child ∈ (nodes.modify parent (·.addChild child requested) : NodeTable) :=
    ExtTreeMap.mem_modify.2 hc
  rw [Draft.connect, nodeAt_modify hc', nodeAt_modify hp]

section Connect

variable {parent child : NodeKey} (hp : parent ∈ nodes) (hc : child ∈ nodes) (requested : Selector)
  (set : ArtifactSet)

include hp hc

/-- An edge changes no key of a node. -/
@[simp] theorem key_connect (key : NodeKey) :
    (nodeAt (Draft.connect nodes parent child requested set) key).key = (nodes.nodeAt key).key := by
  rw [nodeAt_connect hp hc]
  split <;> split <;> simp

/-- An edge gives its parent the child, and no other node gets a child. -/
theorem mem_children_connect (key other : NodeKey) :
    other ∈ (nodeAt (Draft.connect nodes parent child requested set) key).children ↔
      other ∈ (nodes.nodeAt key).children ∨ (parent = key ∧ child = other) := by
  rw [nodeAt_connect hp hc]
  by_cases hpk : parent = key <;> by_cases hck : child = key <;> simp [hpk, hck]

/-- An edge gives its child the parent, and no other node gets a parent. -/
theorem mem_parents_connect (key other : NodeKey) :
    other ∈ (nodeAt (Draft.connect nodes parent child requested set) key).parents ↔
      other ∈ (nodes.nodeAt key).parents ∨ (child = key ∧ parent = other) := by
  rw [nodeAt_connect hp hc]
  by_cases hpk : parent = key <;> by_cases hck : child = key <;> simp [hpk, hck]

/-- An edge adds its artifacts to those that the child exposes to the parent, and changes nothing else that is
exposed. -/
theorem artifactsFrom?_connect (key other : NodeKey) :
    (nodeAt (Draft.connect nodes parent child requested set) key).artifactsFrom? other =
      if child = key ∧ parent = other then
        some (((nodes.nodeAt key).artifactsFrom? parent).getD ∅ ∪ set)
      else (nodes.nodeAt key).artifactsFrom? other := by
  rw [nodeAt_connect hp hc]
  by_cases hpk : parent = key <;> by_cases hck : child = key <;>
    simp [hpk, hck, ResolvedNode.artifactsFrom?_addParent]

/-- An edge is the result of a request when its parent had no edge to its child yet. -/
theorem dependencies_connect (key : NodeKey) :
    (nodeAt (Draft.connect nodes parent child requested set) key).dependencies =
      (nodes.nodeAt key).dependencies ++
        if parent = key ∧ child ∉ (nodes.nodeAt key).children then [.resolved requested child]
        else [] := by
  rw [nodeAt_connect hp hc]
  by_cases hpk : parent = key <;> by_cases hck : child = key <;>
    simp [hpk, hck, ResolvedNode.dependencies_addChild_eq]

end Connect

/-- An edge registers no key. -/
theorem mem_connect {parent child : NodeKey} {requested : Selector} {set : ArtifactSet} :
    key ∈ Draft.connect nodes parent child requested set ↔ key ∈ nodes := by
  rw [Draft.connect, ExtTreeMap.mem_modify, ExtTreeMap.mem_modify]

/-- A table is known by its keys and the nodes under them. -/
theorem eq_of_nodeAt {nodes' : NodeTable} (hm : ∀ key, key ∈ nodes ↔ key ∈ nodes')
    (hn : ∀ key, nodes.nodeAt key = nodes'.nodeAt key) : nodes = nodes' := by
  apply ExtTreeMap.ext_getElem?
  intro key
  -- the view does not tell a missing node from one without edges, but the keys do
  by_cases h : key ∈ nodes
  · rw [getElem?_of_mem h, getElem?_of_mem ((hm key).1 h), hn]
  · rw [ExtTreeMap.getElem?_eq_none h, ExtTreeMap.getElem?_eq_none (mt (hm key).2 h)]

end NodeTable

/-! ## Assembling a graph -/

/-- A table demands a key exactly when it holds it. -/
@[simp] theorem NodeTable.require_eq_ok_iff {nodes : NodeTable} {key : NodeKey} {u : Unit} :
    nodes.require key = .ok u ↔ key ∈ nodes := by
  rw [NodeTable.require]
  split
  · next h => simp [h]
  · next h => simp [h]

/-- A check of all members of a list succeeds when the check of each member does. -/
theorem forM_eq_ok_iff {ε α : Type} {xs : List α} {check : α → Except ε Unit} {u : Unit} :
    xs.forM check = .ok u ↔ ∀ x ∈ xs, check x = .ok () := by
  induction xs with
  | nil => simp [pure, Except.pure]
  | cons x xs ih =>
    rw [List.forM_eq_forM] at ih ⊢
    rw [List.forM_cons, bind_eq_ok_iff, List.forall_mem_cons, ih]
    constructor
    · rintro ⟨_, hx, hxs⟩
      exact ⟨hx, hxs⟩
    · rintro ⟨hx, hxs⟩
      exact ⟨(), hx, hxs⟩

/-- The graph with a given root over a draft, accepted or not. -/
def Draft.graph (d : Draft) (root : NodeKey) : Graph := ⟨root, d.firstLevel, d.nodes⟩

/-- **A draft finishes to a graph** exactly when its root, its first level and all its edges lie in its
table and each node but the root has a parent. -/
theorem Draft.finish_eq_ok_iff {d : Draft} {root : NodeKey} {g : Graph} :
    d.finish root = .ok g ↔
      g = d.graph root ∧ root ∈ d.nodes ∧ (∀ key ∈ d.firstLevel.values, key ∈ d.nodes) ∧
        (∀ node ∈ d.nodes.values, ∀ key, key ∈ node.parents ∨ key ∈ node.children → key ∈ d.nodes) ∧
        ∀ node ∈ d.nodes.values, node.key ≠ root → node.parents ≠ ∅ := by
  have horphan : Graph.orphan? root d.nodes = none ↔
      ∀ node ∈ d.nodes.values, node.key ≠ root → node.parents ≠ ∅ := by
    rw [Graph.orphan?, List.find?_eq_none]
    simp [ExtTreeSet.isEmpty_iff]
  rw [← horphan, finish, Graph.assemble]
  simp only [bind_eq_ok_iff, NodeTable.require_eq_ok_iff, forM_eq_ok_iff, List.mem_append,
    ExtTreeSet.mem_toList]
  constructor
  · rintro ⟨-, hroot, -, hfirst, -, hedges, h⟩
    split at h
    · cases h
    · next hnone =>
      cases h
      exact ⟨rfl, hroot, hfirst, hedges, hnone⟩
  · rintro ⟨rfl, hroot, hfirst, hedges, hnone⟩
    refine ⟨(), hroot, (), hfirst, (), hedges, ?_⟩
    rw [hnone]
    rfl

end ResolutionLog
