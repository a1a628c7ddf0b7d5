import Mathlib.Order.WellFoundedSet
import ResolutionLog.Proofs.WellFormed

/-! # What the root of a graph reaches

When a graph is assembled, each node but the root is only asked for some parent. Nodes that are each other's
ancestors pass: around a cycle everybody has a parent, and the root need not lead there. Without a cycle from
parents to children it does: one parent after another leads up to the root, since the nodes are finitely many.
So the root leads to every node, and is the only one without a parent (`materialize_reachable`). -/

namespace ResolutionLog

open Relation Std

namespace Graph

/-- An edge of a graph leads from a node to one of its children. -/
def Edge (g : Graph) (parent child : NodeKey) : Prop :=
  ∃ node, g.node? parent = some node ∧ child ∈ node.children

namespace WellFormed

variable {g : Graph} (h : g.WellFormed)

include h

/-- An edge leads from a node of the graph to one that has the first as a parent. -/
theorem edge_iff {parent child : NodeKey} {node : ResolvedNode} (hc : g.node? child = some node) :
    g.Edge parent child ↔ parent ∈ node.parents := by
  constructor
  · rintro ⟨p, hp, hchild⟩
    exact (h.mem_children_iff hp hc).1 hchild
  · intro hparent
    -- the parent has a node, in which the edge is mirrored
    have hp := NodeTable.getElem?_of_mem (h.parent_mem hc parent hparent)
    exact ⟨_, hp, (h.mem_children_iff hp hc).2 hparent⟩

/-- Each node but the root is the child of a node. -/
theorem exists_edge {key : NodeKey} (hk : key ∈ g.nodes) (hne : key ≠ g.root) :
    ∃ parent ∈ g.nodes, g.Edge parent key := by
  have hc := NodeTable.getElem?_of_mem hk
  obtain ⟨parent, hparent⟩ := h.exists_parent hc hne
  exact ⟨parent, h.parent_mem hc parent hparent, (h.edge_iff hc).2 hparent⟩

/-- **Without cycles the root leads to every node.** -/
theorem reachable (hacyclic : ∀ key, ¬TransGen g.Edge key key) {key : NodeKey} (hk : key ∈ g.nodes) :
    ReflTransGen g.Edge g.root key := by
  have horder : IsStrictOrder NodeKey (TransGen g.Edge) :=
    { irrefl := hacyclic, trans := fun _ _ _ => TransGen.trans }
  have hfinite : {key | key ∈ g.nodes}.Finite :=
    g.nodes.keys.finite_toSet.subset fun key hk => ExtTreeMap.mem_keys.2 hk
  -- of finitely many nodes none has ancestors without end, and only the root has none
  have hancestors : {key | key ∈ g.nodes}.WellFoundedOn (TransGen g.Edge) := hfinite.wellFoundedOn
  refine hancestors.induction hk fun key hk ih => ?_
  by_cases hroot : key = g.root
  · rw [hroot]
  · obtain ⟨parent, hp, hedge⟩ := h.exists_edge hk hroot
    exact (ih parent hp (.single hedge)).tail hedge

/-- **Without cycles only the root has no parents.** -/
theorem parents_eq_empty_iff (hacyclic : ∀ key, ¬TransGen g.Edge key key) {key : NodeKey}
    {node : ResolvedNode} (hk : g.node? key = some node) : node.parents = ∅ ↔ key = g.root := by
  rw [ExtTreeSet.eq_empty_iff_forall_not_mem]
  constructor
  · intro hnone
    by_contra hne
    obtain ⟨parent, hparent⟩ := h.exists_parent hk hne
    exact hnone parent hparent
  · rintro rfl parent hparent
    -- the root leads to its parent too, and this back to the root
    have hreach := h.reachable hacyclic (h.parent_mem hk parent hparent)
    exact hacyclic g.root (.tail' hreach ((h.edge_iff hk).2 hparent))

end WellFormed

end Graph

/-! ## Materialized graphs -/

/-- **A materialized graph hangs together if it has no cycles**, whatever bytes it comes from: its root leads to
every node, and is the only node without parents. -/
theorem materialize_reachable {contents : Contents} {source : ByteSource} {g : Graph}
    (h : (materialize contents source).1 = .ok g) (hacyclic : ∀ key, ¬TransGen g.Edge key key) :
    (∀ key ∈ g.nodes, ReflTransGen g.Edge g.root key) ∧
      ∀ {key node}, g.node? key = some node → (node.parents = ∅ ↔ key = g.root) := by
  have hg := materialize_wellFormed h
  exact ⟨fun key hk => hg.reachable hacyclic hk, fun hk => hg.parents_eq_empty_iff hacyclic hk⟩

/-- In the graph of the sample log all edges come from its root. -/
theorem Sample.edge_of_described {g : Graph} {root : NodeKey} (h : g.Described Sample.lookups Sample.before root)
    {parent child : NodeKey} (he : g.Edge parent child) : parent = Sample.app ∧ child ≠ Sample.app := by
  obtain ⟨node, hp, hchild⟩ := he
  obtain ⟨handle, hrecord⟩ := ((h.node hp).mem_children child).1 hchild
  simp only [Sample.before, List.mem_cons, reduceCtorEq, Record.parentChild.injEq, List.not_mem_nil,
    false_or, or_false] at hrecord
  rcases hrecord with ⟨rfl, rfl, -⟩ | ⟨rfl, rfl, -⟩ | ⟨rfl, rfl, -⟩
  all_goals exact ⟨rfl, by decide⟩

/-- The graph of the sample log hangs together. -/
theorem materialize_reachable_sample :
    ∃ bytes g, (materialize Sample.lookups (.plain bytes)).1 = .ok g ∧
      (∀ key, ¬TransGen g.Edge key key) ∧ (∀ key ∈ g.nodes, ReflTransGen g.Edge g.root key) ∧
      ∀ {key node}, g.node? key = some node → (node.parents = ∅ ↔ key = g.root) := by
  obtain ⟨d, hrun, hk, -⟩ := Sample.exists_run
  obtain ⟨bytes, g, hs, hg, -⟩ := Sample.exists_graph
  have hfinish : d.finish Sample.app = .ok g := by
    rw [← materializeBytes_of_run Sample.named hs hrun hk, hg]
  obtain ⟨rfl, -⟩ := Draft.finish_eq_ok_iff.1 hfinish
  have hedge : ∀ {parent child : NodeKey}, (d.graph Sample.app).Edge parent child →
      parent = Sample.app ∧ child ≠ Sample.app := Sample.edge_of_described (hrun.described Sample.app)
  -- a cycle would come from the root and lead back to it
  have hacyclic : ∀ key, ¬TransGen (d.graph Sample.app).Edge key key := by
    intro key hcycle
    obtain ⟨next, hfirst, -⟩ := TransGen.head'_iff.1 hcycle
    obtain ⟨last, -, hlast⟩ := TransGen.tail'_iff.1 hcycle
    exact (hedge hlast).2 (hedge hfirst).1
  exact ⟨bytes, _, hg, hacyclic, materialize_reachable hg hacyclic⟩

end ResolutionLog
