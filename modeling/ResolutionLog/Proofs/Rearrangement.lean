import ResolutionLog.Proofs.Acceptance
import ResolutionLog.Proofs.WellFormed

/-! # Records in another order

The order of the records before the root hardly matters. As long as keys are registered before they are
mentioned, records make a graph in every order or in none, and the graphs agree in all but the order of the
results of each node (`Graph.AgreesWith`). The results are the point where two records do not commute: of the
edges between two nodes the first one adds the result, wherever it stands. So the results are not followed
through the records one by one. They are taken apart instead, into those that selected a child, which are
one for each child, and those that failed, which are one for each record of a failure
(`Record.perm_results`).

The first level is a table by selectors in which the last record counts. It does not depend on the order
when different nodes were requested by different selectors (`Record.RequestedApart`).

Main statement: `materializeBytes_perm`. -/

namespace ResolutionLog

open Std

variable {contents : Contents}

/-! ## Graphs but for the order of results -/

/-- Two nodes agree in all but the order of the results of their requests. -/
structure ResolvedNode.AgreesWith (m n : ResolvedNode) : Prop where
  key_eq : m.key = n.key
  parents_eq : m.parents = n.parents
  children_eq : m.children = n.children
  parentArtifacts_eq : m.parentArtifacts = n.parentArtifacts
  allArtifacts_eq : m.allArtifacts = n.allArtifacts
  dependencies_perm : m.dependencies.Perm n.dependencies

/-- **Two graphs agree** in all but the order of the results of each node: they have the same root, first
level, keys and numbers of nodes and edges, and under each key nodes that agree. -/
structure Graph.AgreesWith (g g' : Graph) : Prop where
  root_eq : g.root = g'.root
  firstLevel_eq : g.firstLevel = g'.firstLevel
  keys_eq : g.nodes.keys = g'.nodes.keys
  size_eq : g.size = g'.size
  edgeCount_eq : g.edgeCount = g'.edgeCount
  node : ∀ {key node node'}, g.node? key = some node → g'.node? key = some node' → node.AgreesWith node'

/-- A total is known by the keys of a table and by what is counted of the nodes under them. -/
theorem NodeTable.total_eq_of_nodeAt {nodes nodes' : NodeTable} {count : ResolvedNode → Nat}
    (hk : nodes.keys = nodes'.keys) (hn : ∀ key, count (nodes.nodeAt key) = count (nodes'.nodeAt key)) :
    nodes.total count = nodes'.total count := by
  rw [total, total, values_eq_map_keys, values_eq_map_keys, List.foldr_map, List.foldr_map, hk]
  simp only [hn]

/-! ## Results taken apart -/

namespace Record

variable {key root : NodeKey} {records others : List Record}

/-- The failure that a record adds to the results of a node. -/
def failedResult? (key : NodeKey) : Record → Option DependencyResult
  | .unresolved parent requested reason =>
    if parent = key then some (.failed requested reason) else none
  | _ => none

/-- The results that selected a child are determined by the children, in their order. -/
theorem filter_isResolved_results :
    (results contents key records).filter (·.isResolved) =
      ((results contents key records).filterMap (·.selected?)).map fun child =>
        .resolved (contents.requestOf child) child := by
  rw [List.map_filterMap, ← List.filterMap_eq_filter]
  apply List.filterMap_congr
  intro result hm
  rcases resolved_or_failed_of_mem_results hm with ⟨child, rfl⟩ | ⟨requested, reason, rfl⟩
  · rfl
  · rfl

/-- The results that failed are those of the records of failures, in their order. -/
theorem filter_not_isResolved_results :
    (results contents key records).filter (fun result => !result.isResolved) =
      records.filterMap (failedResult? key) := by
  induction records using List.reverseRecOn with
  | nil => rfl
  | append_singleton records record ih =>
    rw [results_concat, List.filter_append, List.filterMap_append, ih]
    congr 1
    cases record with
    | parentChild parent child handle =>
      simp only [result?]
      split <;> simp [failedResult?, DependencyResult.resolved, DependencyResult.isResolved]
    | unresolved parent requested reason =>
      by_cases hp : parent = key <;>
        simp [result?, failedResult?, hp, DependencyResult.failed, DependencyResult.isResolved]
    | newNode | root | firstLevel => rfl

/-- **Results in another order**: the results of a node are the same ones for records in another order. -/
theorem perm_results (h : records.Perm others) :
    (results contents key records).Perm (results contents key others) := by
  have hselected : ((results contents key records).filterMap (·.selected?)).Perm
      ((results contents key others).filterMap (·.selected?)) := by
    rw [List.perm_ext_iff_of_nodup nodup_selected_results nodup_selected_results]
    intro child
    simp only [mem_selected_results, h.mem_iff]
  have hresolved : ((results contents key records).filter (·.isResolved)).Perm
      ((results contents key others).filter (·.isResolved)) := by
    rw [filter_isResolved_results, filter_isResolved_results]
    exact hselected.map _
  have hfailed : ((results contents key records).filter (fun result => !result.isResolved)).Perm
      ((results contents key others).filter (fun result => !result.isResolved)) := by
    rw [filter_not_isResolved_results, filter_not_isResolved_results]
    exact h.filterMap _
  have hsplit := fun records => List.filter_append_perm (·.isResolved) (results contents key records)
  exact (hsplit records).symm.trans ((hresolved.append hfailed).trans (hsplit others))

/-! ## The first level -/

/-- Different first-level nodes were requested by different selectors. -/
def RequestedApart (contents : Contents) (records : List Record) : Prop :=
  ∀ key other selector, .firstLevel key ∈ records → .firstLevel other ∈ records →
    contents.requested key = .found selector → contents.requested other = .found selector → key = other

/-- What a selector requested does not depend on the order of the records when this is one node. -/
theorem RequestedApart.requestedBy_eq (hapart : RequestedApart contents records)
    (h : records.Perm others) (selector : Selector) :
    requestedBy contents selector records = requestedBy contents selector others := by
  have hperm : (requestedBy contents selector records).Perm (requestedBy contents selector others) :=
    h.filterMap _
  have heq : ∀ key other, key ∈ requestedBy contents selector records →
      other ∈ requestedBy contents selector others → key = other := by
    intro key other hk ho
    obtain ⟨hk, hs⟩ := mem_requestedBy_iff.1 hk
    obtain ⟨ho, hs'⟩ := mem_requestedBy_iff.1 ho
    exact hapart key other selector hk (h.mem_iff.2 ho) hs hs'
  have htrivial : ∀ keys : List NodeKey, keys.Pairwise fun _ _ => True :=
    fun keys => List.pairwise_of_forall fun _ _ => trivial
  exact hperm.eq_of_pairwise (fun key other hk ho _ _ => heq key other hk ho) (htrivial _) (htrivial _)

/-! ## Valid records -/

/-- Valid records stay valid in every order in which keys are registered before they are mentioned. -/
theorem Valid.perm (hvalid : Valid contents records) (h : records.Perm others)
    (hbefore : RegisteredBefore others) : Valid contents others where
  registered_once key := by
    rw [← h.count_eq]
    exact hvalid.registered_once key
  registered_before := hbefore
  answered record hm := hvalid.answered record (h.mem_iff.2 hm)

/-- The orphans do not depend on the order of the records. -/
theorem orphan_iff_of_perm (h : records.Perm others) : Orphan records root key ↔ Orphan others root key := by
  simp only [Orphan, h.mem_iff]

end Record

/-! ## Graphs of rearranged records -/

section Described

variable {records others : List Record} (h : records.Perm others)

include h

/-- A node that is as some records say, and one that is as these say in another order, agree. -/
theorem ResolvedNode.Described.agreesWith {key : NodeKey} {m n : ResolvedNode}
    (hm : m.Described contents records key) (hn : n.Described contents others key) : m.AgreesWith n := by
  -- with the results of the first node, the second one is as the first records say
  have hn' : ResolvedNode.Described contents records key { n with results := m.results } := {
    key_eq := hn.key_eq
    mem_children := fun child => (hn.mem_children child).trans (by simp only [h.mem_iff])
    mem_parents := fun parent => (hn.mem_parents parent).trans (by simp only [h.mem_iff])
    artifacts_isSome := fun parent => (hn.artifacts_isSome parent).trans (by simp only [h.mem_iff])
    mem_artifacts := fun parent artifact =>
      (hn.mem_artifacts parent artifact).trans (by simp only [h.mem_iff])
    dependencies_eq := hm.dependencies_eq }
  have hperm : m.dependencies.Perm n.dependencies := by
    rw [hm.dependencies_eq, hn.dependencies_eq]
    exact Record.perm_results h
  rw [hm.eq hn']
  exact ⟨rfl, rfl, rfl, rfl, rfl, hperm⟩

/-- **Graphs of rearranged records agree**, if different first-level nodes were requested by different
selectors. -/
theorem Graph.Described.agreesWith {root : NodeKey} {g g' : Graph}
    (hapart : Record.RequestedApart contents records) (hg : g.Described contents records root)
    (hg' : g'.Described contents others root) : g.AgreesWith g' := by
  have hkeys : g.nodes.keys = g'.nodes.keys := by
    rw [NodeTable.keys_eq_registered hg.mem_nodes]
    refine (NodeTable.keys_eq_registered fun key => ?_).symm
    rw [hg'.mem_nodes, h.mem_iff]
  have hnode : ∀ key, (g.nodes.nodeAt key).AgreesWith (g'.nodes.nodeAt key) :=
    fun key => (hg.nodeAt key).agreesWith h (hg'.nodeAt key)
  refine ⟨hg.root_eq.trans hg'.root_eq.symm, ?_, hkeys, ?_, ?_, ?_⟩
  · apply ExtTreeMap.ext_getElem?
    intro selector
    rw [hg.firstLevel_eq, hg'.firstLevel_eq, hapart.requestedBy_eq h]
  · rw [Graph.size, Graph.size, ← ExtTreeMap.length_keys, ← ExtTreeMap.length_keys, hkeys]
  · exact NodeTable.total_eq_of_nodeAt hkeys fun key => by rw [(hnode key).children_eq]
  · intro key node node' hn hn'
    rw [← NodeTable.nodeAt_of_getElem? hn, ← NodeTable.nodeAt_of_getElem? hn']
    exact hnode key

end Described

/-! ## Materializing rearranged records -/

/-- When a graph comes from some records, none of them a root, and a root behind them, all of them could be
read and were taken. -/
theorem exists_run_of_stream_concat {records : List Record} {root : NodeKey} {bytes : List UInt8}
    {g : Graph} (hno : ∀ key, .root key ∉ records)
    (hs : Record.stream (records ++ [.root root]) = .ok bytes)
    (h : materializeBytes contents bytes = .ok g) :
    (∀ record ∈ records ++ [.root root], record.Named) ∧
      ∃ d, Draft.empty.Run contents records d ∧ d.finish root = .ok g := by
  obtain ⟨before, found, s, d, hreads, hrun, -, hg⟩ := exists_run_of_materializeFrom h
  rcases List.prefix_concat_iff.1 (hreads.isPrefix_of_stream hs (RecordReader.plain_start _) rfl) with heq | hearlier
  · have hnamed := hreads.named
    obtain ⟨rfl, hroot⟩ := List.append_inj' heq rfl
    cases hroot
    exact ⟨hnamed, d, hrun, hg⟩
  · -- the root that was read would be one of the records
    exact absurd (hearlier.subset (List.mem_append_right before List.mem_cons_self)) (hno found)

section Perm

variable {records others : List Record} {root : NodeKey} {bytes bytes' : List UInt8}

/-- Records in another order make a graph too. -/
theorem exists_graph_of_perm {g : Graph} (hperm : records.Perm others) (hno : ∀ key, .root key ∉ records)
    (hbefore : Record.RegisteredBefore others)
    (hs : Record.stream (records ++ [.root root]) = .ok bytes)
    (hs' : Record.stream (others ++ [.root root]) = .ok bytes')
    (h : materializeBytes contents bytes = .ok g) : ∃ g', materializeBytes contents bytes' = .ok g' := by
  obtain ⟨hnamed, d, hrun, hg⟩ := exists_run_of_stream_concat hno hs h
  obtain ⟨hroot, horphan⟩ := hrun.exists_finish_iff.1 ⟨g, hg⟩
  obtain ⟨hvalid, -⟩ := Draft.exists_run_iff.1 ⟨d, hrun⟩
  -- all of this carries over to the other order
  have hno' : ∀ key, .root key ∉ others := fun key => mt hperm.mem_iff.2 (hno key)
  have hnamed' : ∀ record ∈ others ++ [.root root], record.Named :=
    fun record hm => hnamed record ((hperm.append_right _).mem_iff.2 hm)
  obtain ⟨d', hrun'⟩ := Draft.exists_run_iff.2 ⟨hvalid.perm hperm hbefore, hno'⟩
  have hroot' : .newNode root ∈ others := hperm.mem_iff.1 hroot
  obtain ⟨g', hg'⟩ := hrun'.exists_finish_iff.2
    ⟨hroot', fun key ho => horphan key ((Record.orphan_iff_of_perm hperm).2 ho)⟩
  refine ⟨g', ?_⟩
  rw [materializeBytes_of_run hnamed' hs' hrun' ((hrun'.mem_nodes_iff root).2 hroot'), hg']

/-- **The order before the root does not matter** but for the order of results: when records are registered
before they are mentioned in both of two orders, and different first-level nodes were requested by different
selectors, then a graph comes from both orders or from neither, and the two graphs agree. -/
theorem materializeBytes_perm (hperm : records.Perm others) (hno : ∀ key, .root key ∉ records)
    (hbefore : Record.RegisteredBefore records) (hbefore' : Record.RegisteredBefore others)
    (hapart : Record.RequestedApart contents records)
    (hs : Record.stream (records ++ [.root root]) = .ok bytes)
    (hs' : Record.stream (others ++ [.root root]) = .ok bytes') :
    ((∃ g, materializeBytes contents bytes = .ok g) ↔ ∃ g', materializeBytes contents bytes' = .ok g') ∧
      ∀ g g', materializeBytes contents bytes = .ok g → materializeBytes contents bytes' = .ok g' →
        g.AgreesWith g' := by
  have hno' : ∀ key, .root key ∉ others := fun key => mt hperm.mem_iff.2 (hno key)
  refine ⟨⟨?_, ?_⟩, fun g g' hg hg' => ?_⟩
  · rintro ⟨g, hg⟩
    exact exists_graph_of_perm hperm hno hbefore' hs hs' hg
  · rintro ⟨g', hg'⟩
    exact exists_graph_of_perm hperm.symm hno' hbefore hs' hs hg'
  · obtain ⟨-, d, hrun, hfinish⟩ := exists_run_of_stream_concat hno hs hg
    obtain ⟨-, d', hrun', hfinish'⟩ := exists_run_of_stream_concat hno' hs' hg'
    obtain ⟨rfl, -⟩ := Draft.finish_eq_ok_iff.1 hfinish
    obtain ⟨rfl, -⟩ := Draft.finish_eq_ok_iff.1 hfinish'
    exact Graph.Described.agreesWith hperm hapart (hrun.described root) (hrun'.described root)

end Perm

/-! ## Two orders of a sample -/

namespace Sample

/-- Edges, and then a failure. -/
def edgesFirst : List Record :=
  [.newNode app, .newNode compile, .newNode runtime, .parentChild app compile ⟨0⟩,
    .parentChild app runtime ⟨0⟩, .unresolved app (.exact app.component) "no match", .firstLevel compile]

/-- The same records with the failure before the edges, and these the other way round. -/
def failureFirst : List Record :=
  [.newNode runtime, .newNode compile, .firstLevel compile, .newNode app,
    .unresolved app (.exact app.component) "no match", .parentChild app runtime ⟨0⟩,
    .parentChild app compile ⟨0⟩]

/-- The edges before the failure make a graph. -/
theorem exists_graph_edgesFirst : ∃ bytes g, Record.stream (edgesFirst ++ [.root app]) = .ok bytes ∧
    materializeBytes lookups bytes = .ok g := by
  have hcompile : lookups.requested compile = .found request := by decide
  obtain ⟨d, hrun, hk, hok⟩ : ∃ d, Draft.empty.Run lookups edgesFirst d ∧ app ∈ d.nodes ∧
      (d.finish app).isOk = true := by
    refine ⟨_, .cons (.newNode ?_) <| .cons (.newNode ?_) <| .cons (.newNode ?_) <|
      .cons (.parentChild ?_ ?_ rfl ?_) <| .cons (.parentChild ?_ ?_ rfl ?_) <|
      .cons (.unresolved ?_) <| .cons (.firstLevel ?_ hcompile) <| .nil _, ?_, ?_⟩
    all_goals decide +kernel
  have hstream : (Record.stream (edgesFirst ++ [.root app])).isOk = true := by decide +kernel
  obtain ⟨bytes, hs⟩ := isOk_iff_exists.1 hstream
  obtain ⟨g, hg⟩ := isOk_iff_exists.1 hok
  have hnamed : ∀ record ∈ edgesFirst ++ [.root app], record.Named := by decide +kernel
  exact ⟨bytes, g, hs, (materializeBytes_of_run hnamed hs hrun hk).trans hg⟩

end Sample

/-- Both orders of the sample make graphs that agree. -/
theorem materializeBytes_perm_sample :
    ∃ bytes bytes' g g', Record.stream (Sample.edgesFirst ++ [.root Sample.app]) = .ok bytes ∧
      Record.stream (Sample.failureFirst ++ [.root Sample.app]) = .ok bytes' ∧
      materializeBytes Sample.lookups bytes = .ok g ∧ materializeBytes Sample.lookups bytes' = .ok g' ∧
      g.AgreesWith g' := by
  obtain ⟨bytes, g, hs, hg⟩ := Sample.exists_graph_edgesFirst
  have hstream : (Record.stream (Sample.failureFirst ++ [.root Sample.app])).isOk = true := by
    decide +kernel
  obtain ⟨bytes', hs'⟩ := isOk_iff_exists.1 hstream
  have hno : ∀ key, .root key ∉ Sample.edgesFirst := by simp [Sample.edgesFirst]
  -- there is only one first-level record
  have hapart : Record.RequestedApart Sample.lookups Sample.edgesFirst := by
    intro key other selector hk ho _ _
    simp only [Sample.edgesFirst, List.mem_cons, reduceCtorEq, Record.firstLevel.injEq,
      List.not_mem_nil, or_false, false_or] at hk ho
    rw [hk, ho]
  obtain ⟨hiff, hagrees⟩ := materializeBytes_perm (by decide +kernel) hno (by decide +kernel)
    (by decide +kernel) hapart hs hs'
  obtain ⟨g', hg'⟩ := hiff.1 ⟨g, hg⟩
  exact ⟨bytes, bytes', g, g', hs, hs', hg, hg', hagrees g g' hg hg'⟩

end ResolutionLog
