import Mathlib.Data.List.Induction
import Mathlib.Data.List.Nodup
import Mathlib.Data.Prod.Basic
import ResolutionLog.Proofs.Description

/-! # Well-formed graphs

Only part of what makes a graph sensible is checked when it is assembled: that its keys are known, and
that only its root has no parent. The rest holds because every record keeps it: nodes stand under their
own keys, parents and children mirror each other, artifacts belong to parents, and the results of the
requests of a node select each of its children once.

`Graph.WellFormed` is all of this together with the three ways to count edges, which agree: by children,
by parents, and by results. Main statement: whatever is materialized, from whatever bytes, is well formed
(`materialize_wellFormed`). -/

namespace ResolutionLog

open Std

variable {contents : Contents}

/-! ## Well-formedness -/

/-- The nodes that the requests of a node selected, in the order of the results. -/
def ResolvedNode.selected (n : ResolvedNode) : List NodeKey := n.dependencies.filterMap (·.selected?)

/-- A node is coherent: it has artifacts for its parents and for no other node, its requests selected
its children, each of them once, and each request selected a node or failed, but not both. -/
structure ResolvedNode.Coherent (n : ResolvedNode) : Prop where
  mem_artifacts : ∀ parent, parent ∈ n.parentArtifacts ↔ parent ∈ n.parents
  selected_nodup : n.selected.Nodup
  mem_selected : ∀ child, child ∈ n.selected ↔ child ∈ n.children
  selected_or_failed : ∀ result ∈ n.dependencies, result.selected?.isSome ≠ result.failure?.isSome

/-- **A graph is well formed.** -/
structure Graph.WellFormed (g : Graph) : Prop where
  root_mem : g.root ∈ g.nodes
  firstLevel_mem : ∀ key ∈ g.firstLevel.values, key ∈ g.nodes
  key_eq : ∀ {key node}, g.node? key = some node → node.key = key
  coherent : ∀ {key node}, g.node? key = some node → node.Coherent
  parent_mem : ∀ {key node}, g.node? key = some node → ∀ parent ∈ node.parents, parent ∈ g.nodes
  child_mem : ∀ {key node}, g.node? key = some node → ∀ child ∈ node.children, child ∈ g.nodes
  mem_children_iff : ∀ {parent child p c}, g.node? parent = some p → g.node? child = some c →
    (child ∈ p.children ↔ parent ∈ c.parents)
  exists_parent : ∀ {key node}, g.node? key = some node → key ≠ g.root → ∃ parent, parent ∈ node.parents
  edgeCount_eq_parents : g.edgeCount = g.nodes.total (·.parents.size)
  edgeCount_eq_results : g.edgeCount =
    g.nodes.total fun node => (node.dependencies.filter (·.isResolved)).length

/-! ## Results of records -/

namespace Record

variable {key : NodeKey} {records : List Record}

/-- A record selects a node when it is the first edge to that node. -/
theorem selected_result?_eq_some_iff {record : Record} {child : NodeKey} :
    (record.result? contents key records).bind (·.selected?) = some child ↔
      record.joins key child ∧ ¬∃ handle, .parentChild key child handle ∈ records := by
  rw [← any_joins_iff]
  cases record with
  | parentChild parent other handle =>
    by_cases hfirst : parent = key ∧ ¬records.any (joins parent other)
    · rw [result?, if_pos hfirst]
      obtain ⟨rfl, hnone⟩ := hfirst
      simp only [Option.bind_some, DependencyResult.resolved, Option.some.injEq, joins, decide_eq_true_eq,
        true_and]
      constructor
      · rintro rfl
        exact ⟨rfl, hnone⟩
      · rintro ⟨rfl, -⟩
        rfl
    · rw [result?, if_neg hfirst]
      simp only [Option.bind_none, reduceCtorEq, joins, decide_eq_true_eq, false_iff]
      rintro ⟨⟨rfl, rfl⟩, hnone⟩
      exact hfirst ⟨rfl, hnone⟩
  | unresolved parent requested reason =>
    by_cases hp : parent = key <;> simp [result?, hp, joins, DependencyResult.failed]
  | newNode | root | firstLevel => simp [result?, joins]

/-- A last record adds what its result has selected. -/
theorem selected_results_concat {record : Record} :
    (results contents key (records ++ [record])).filterMap (·.selected?) =
      (results contents key records).filterMap (·.selected?) ++
        ((record.result? contents key records).bind (·.selected?)).toList := by
  rw [results_concat, List.filterMap_append]
  cases record.result? contents key records with
  | none => rfl
  | some result => cases h : result.selected? <;> simp [h]

/-- The results of a node select the children that its edges lead to. -/
theorem mem_selected_results {child : NodeKey} :
    child ∈ (results contents key records).filterMap (·.selected?) ↔
      ∃ handle, .parentChild key child handle ∈ records := by
  induction records using List.reverseRecOn with
  | nil => simp
  | append_singleton records record ih =>
    rw [selected_results_concat, List.mem_append, ih, Option.mem_toList,
      selected_result?_eq_some_iff, exists_parentChild_mem_concat]
    -- an edge that has been there before adds nothing on either side
    by_cases hbefore : ∃ handle, .parentChild key child handle ∈ records
    · simp [hbefore]
    · simp [hbefore]

/-- No child is selected twice. -/
theorem nodup_selected_results :
    ((results contents key records).filterMap (·.selected?)).Nodup := by
  induction records using List.reverseRecOn with
  | nil => exact List.nodup_nil
  | append_singleton records record ih =>
    rw [selected_results_concat]
    cases h : (record.result? contents key records).bind (·.selected?) with
    | none =>
      rw [Option.toList_none, List.append_nil]
      exact ih
    | some child =>
      -- the record is the first edge to its child, which no earlier result selects
      have hnew := (selected_result?_eq_some_iff.1 h).2
      rw [Option.toList_some, List.nodup_append]
      refine ⟨ih, List.nodup_singleton child, fun other ho last hl => ?_⟩
      rw [List.mem_singleton.1 hl]
      rintro rfl
      exact hnew (mem_selected_results.1 ho)

/-- A result comes from an edge to a child, with the selector that requested it, or from a failure. -/
theorem resolved_or_failed_of_mem_results {result : DependencyResult}
    (h : result ∈ results contents key records) :
    (∃ child, result = .resolved (contents.requestOf child) child) ∨
      ∃ requested reason, result = .failed requested reason := by
  obtain ⟨position, -, hposition⟩ := List.mem_filterMap.1 h
  obtain ⟨record, -, hrecord⟩ := Option.bind_eq_some_iff.1 hposition
  cases record with
  | parentChild parent child handle =>
    obtain ⟨-, hresult⟩ := Option.ite_none_right_eq_some.1 hrecord
    cases hresult
    exact .inl ⟨child, rfl⟩
  | unresolved parent requested reason =>
    obtain ⟨-, hresult⟩ := Option.ite_none_right_eq_some.1 hrecord
    cases hresult
    exact .inr ⟨requested, reason, rfl⟩
  | newNode | root | firstLevel => cases hrecord

/-- Each result of a record selects a node or states a failure, and not both. -/
theorem selected_or_failed_of_mem_results {result : DependencyResult}
    (h : result ∈ results contents key records) :
    result.selected?.isSome ≠ result.failure?.isSome := by
  rcases resolved_or_failed_of_mem_results h with ⟨child, rfl⟩ | ⟨requested, reason, rfl⟩
  · simp [DependencyResult.resolved]
  · simp [DependencyResult.failed]

end Record

/-- A node that is as some records say is coherent. -/
theorem ResolvedNode.Described.coherent {records : List Record} {key : NodeKey} {node : ResolvedNode}
    (h : node.Described contents records key) : node.Coherent := by
  refine ⟨fun parent => ?_, ?_, fun child => ?_, ?_⟩
  · rw [h.mem_parents, ← h.artifacts_isSome, artifactsFrom?, ExtTreeMap.isSome_getElem?_iff_mem]
  · rw [selected, h.dependencies_eq]
    exact Record.nodup_selected_results
  · rw [selected, h.dependencies_eq, Record.mem_selected_results, h.mem_children]
  · rw [h.dependencies_eq]
    exact fun result hr => Record.selected_or_failed_of_mem_results hr

/-! ## Counting edges -/

/-- No key of a set is listed twice. -/
theorem nodup_toList (keys : ExtTreeSet NodeKey) : keys.toList.Nodup :=
  ExtTreeSet.distinct_toList.imp fun hne heq => hne (LawfulEqCmp.compare_eq_iff_eq.2 heq)

/-- The keys of a table paired with what the nodes under them hold. -/
def NodeTable.pairs (nodes : NodeTable) (ends : ResolvedNode → ExtTreeSet NodeKey) :
    List (NodeKey × NodeKey) :=
  nodes.toList.flatMap fun entry => (ends entry.2).toList.map (Prod.mk entry.1)

namespace NodeTable

variable {nodes : NodeTable} {ends : ResolvedNode → ExtTreeSet NodeKey}

/-- There are as many pairs as the nodes hold keys in all. -/
theorem length_pairs : (nodes.pairs ends).length = nodes.total fun node => (ends node).size := by
  rw [pairs, total, values_eq_map_toList]
  induction nodes.toList with
  | nil => rfl
  | cons entry entries ih =>
    rw [List.flatMap_cons, List.length_append, ih, List.length_map, ExtTreeSet.length_toList,
      List.map_cons, List.foldr_cons]

/-- The pairs of a table are the keys of its nodes with their ends. -/
theorem mem_pairs {key other : NodeKey} :
    (key, other) ∈ nodes.pairs ends ↔ ∃ node, nodes[key]? = some node ∧ other ∈ ends node := by
  simp only [pairs, List.mem_flatMap, List.mem_map, ExtTreeSet.mem_toList, Prod.mk.injEq]
  constructor
  · rintro ⟨⟨_, node⟩, hm, _, ho, rfl, rfl⟩
    exact ⟨node, ExtTreeMap.mem_toList_iff_getElem?_eq_some.1 hm, ho⟩
  · rintro ⟨node, hm, ho⟩
    exact ⟨(key, node), ExtTreeMap.mem_toList_iff_getElem?_eq_some.2 hm, other, ho, rfl, rfl⟩

/-- No pair comes twice, since neither keys nor what nodes hold do. -/
theorem nodup_pairs : (nodes.pairs ends).Nodup := by
  rw [pairs, List.nodup_flatMap]
  constructor
  · intro entry _
    exact (nodup_toList (ends entry.2)).map (Prod.mk_right_injective entry.1)
  · -- pairs of different entries differ in their first parts
    refine ExtTreeMap.distinct_keys_toList.imp fun {entry other} hne pair hp ho => hne ?_
    obtain ⟨_, -, rfl⟩ := List.mem_map.1 hp
    obtain ⟨_, -, heq⟩ := List.mem_map.1 ho
    rw [(Prod.mk.inj heq).1]
    exact LawfulEqCmp.compare_eq_iff_eq.2 rfl

/-- A total is known by what is counted of each node. -/
theorem total_congr {f f' : ResolvedNode → Nat} (h : ∀ node ∈ nodes.values, f node = f' node) :
    nodes.total f = nodes.total f' := by
  apply List.foldr_ext
  intro node hn sum
  rw [h node hn]

/-- Two ways to hold keys that mirror each other hold equally many in all. -/
theorem total_size_eq {back : ResolvedNode → ExtTreeSet NodeKey}
    (h : ∀ key other, (key, other) ∈ nodes.pairs ends ↔ (other, key) ∈ nodes.pairs back) :
    (nodes.total fun node => (ends node).size) = nodes.total fun node => (back node).size := by
  have hperm : (nodes.pairs ends).Perm ((nodes.pairs back).map Prod.swap) := by
    rw [List.perm_ext_iff_of_nodup nodup_pairs (nodup_pairs.map Prod.swap_injective)]
    rintro ⟨key, other⟩
    rw [h, List.mem_map]
    constructor
    · intro hm
      exact ⟨_, hm, rfl⟩
    · rintro ⟨⟨_, _⟩, hm, heq⟩
      cases heq
      exact hm
  rw [← length_pairs, ← length_pairs, hperm.length_eq, List.length_map]

end NodeTable

/-- A coherent node has as many children as its requests selected nodes. -/
theorem ResolvedNode.Coherent.size_children {n : ResolvedNode} (h : n.Coherent) :
    n.children.size = (n.dependencies.filter (·.isResolved)).length := by
  -- both lists are without repeats, so that they are permutations of each other
  have hperm : n.selected.Perm n.children.toList := by
    rw [List.perm_ext_iff_of_nodup h.selected_nodup (nodup_toList n.children)]
    intro child
    rw [h.mem_selected, ExtTreeSet.mem_toList]
  rw [← ExtTreeSet.length_toList, ← hperm.length_eq, selected, List.length_filterMap_eq_countP,
    List.countP_eq_length_filter]
  rfl

/-! ## Materialized graphs are well formed -/

namespace Graph.Described

variable {records : List Record} {root : NodeKey} {g : Graph} (h : g.Described contents records root)

include h

/-- Parents and children mirror each other. -/
theorem mem_children_iff {parent child : NodeKey} {p c : ResolvedNode} (hp : g.node? parent = some p)
    (hc : g.node? child = some c) : child ∈ p.children ↔ parent ∈ c.parents := by
  rw [(h.node hp).mem_children, (h.node hc).mem_parents]

/-- There are as many parents as children in all, if all of them have nodes. -/
theorem edgeCount_eq_parents
    (hclosed : ∀ node ∈ g.nodes.values, ∀ key, key ∈ node.parents ∨ key ∈ node.children → key ∈ g.nodes) :
    g.edgeCount = g.nodes.total (·.parents.size) := by
  apply NodeTable.total_size_eq
  intro parent child
  rw [NodeTable.mem_pairs, NodeTable.mem_pairs]
  -- the other end of an edge has a node, in which the edge is mirrored
  constructor
  · rintro ⟨p, hp, hchild⟩
    have hmem := hclosed p (mem_values_iff.2 ⟨parent, hp⟩) child (.inr hchild)
    have hc := NodeTable.getElem?_of_mem hmem
    exact ⟨_, hc, (h.mem_children_iff hp hc).1 hchild⟩
  · rintro ⟨c, hc, hparent⟩
    have hmem := hclosed c (mem_values_iff.2 ⟨child, hc⟩) parent (.inl hparent)
    have hp := NodeTable.getElem?_of_mem hmem
    exact ⟨_, hp, (h.mem_children_iff hp hc).2 hparent⟩

/-- There are as many children as requests that selected a node. -/
theorem edgeCount_eq_results : g.edgeCount =
    g.nodes.total fun node => (node.dependencies.filter (·.isResolved)).length := by
  apply NodeTable.total_congr
  intro node hn
  obtain ⟨key, hk⟩ := mem_values_iff.1 hn
  exact (h.node hk).coherent.size_children

end Graph.Described

/-- **A run that finishes gives a well-formed graph.** -/
theorem Draft.Run.wellFormed {records : List Record} {d : Draft} {root : NodeKey} {g : Graph}
    (hrun : Draft.empty.Run contents records d) (hg : d.finish root = .ok g) : g.WellFormed := by
  obtain ⟨rfl, hroot, hfirst, hclosed, hparents⟩ := Draft.finish_eq_ok_iff.1 hg
  have h := hrun.described root
  -- the checks at the end speak of the nodes, and all else of the records
  have hvalue : ∀ {key node}, (d.graph root).node? key = some node → node ∈ d.nodes.values :=
    fun hk => mem_values_iff.2 ⟨_, hk⟩
  exact {
    root_mem := hroot
    firstLevel_mem := hfirst
    key_eq := fun hk => (h.node hk).key_eq
    coherent := fun hk => (h.node hk).coherent
    parent_mem := fun hk parent hp => hclosed _ (hvalue hk) parent (.inl hp)
    child_mem := fun hk child hc => hclosed _ (hvalue hk) child (.inr hc)
    mem_children_iff := h.mem_children_iff
    exists_parent := by
      intro key node hk hne
      have hkey : node.key ≠ root := (h.node hk).key_eq ▸ hne
      have hnonempty := hparents node (hvalue hk) hkey
      by_contra hnone
      exact hnonempty (ExtTreeSet.eq_empty_iff_forall_not_mem.2 (not_exists.1 hnone))
    edgeCount_eq_parents := h.edgeCount_eq_parents hclosed
    edgeCount_eq_results := h.edgeCount_eq_results }

/-- **Whatever is materialized is well formed**, from any bytes however they arrive, and with any
contents. -/
theorem materialize_wellFormed {source : ByteSource} {g : Graph}
    (h : (materialize contents source).1 = .ok g) : g.WellFormed := by
  obtain ⟨_, root, _, d, -, hrun, -, hg⟩ := exists_run_of_materializeFrom h
  exact hrun.wellFormed hg

/-- The graph of the sample log is well formed. -/
theorem materialize_wellFormed_sample :
    ∃ bytes g, (materialize Sample.lookups (.plain bytes)).1 = .ok g ∧ g.WellFormed := by
  obtain ⟨bytes, g, -, hg, -⟩ := Sample.exists_graph
  exact ⟨bytes, g, hg, materialize_wellFormed hg⟩

end ResolutionLog
