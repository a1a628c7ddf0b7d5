import Mathlib.Data.List.Basic
import ResolutionLog.Proofs.Draft

/-! # The graph that records describe

A list of records describes a graph by what occurs in it and in which order, without any tables: nodes
and edges by the records that name them, the artifacts of an edge by all records of that edge, the
results of the requests of a node by the positions of the records that add them (`Record.results`), and
the first level by the last record for each selector (`Record.requestedBy`). `Graph.Described` puts this
together; it leaves nothing about a graph open (`Graph.Described.eq`).

Each step of a draft keeps the description (`Draft.Step.described`), with the record added to the list.
Main statement: what is materialized from a stream is the graph that the records before its first root
describe (`materializeBytes_described`). -/

namespace ResolutionLog

open Std

variable {contents : Contents}

/-! ## What records say -/

namespace Record

/-- Whether a record is an edge from one node to another. -/
def joins (parent child : NodeKey) : Record → Bool
  | .parentChild p c _ => p = parent ∧ c = child
  | _ => false

/-- The result that a record adds to the requests of a node, after some records before it. An edge does
so unless one of these leads from the same parent to the same child. -/
def result? (contents : Contents) (key : NodeKey) (before : List Record) :
    Record → Option DependencyResult
  | .parentChild parent child _ =>
    if parent = key ∧ ¬before.any (joins parent child) then
      some (.resolved (contents.requestOf child) child)
    else none
  | .unresolved parent requested reason =>
    if parent = key then some (.failed requested reason) else none
  | _ => none

/-- The results of the requests of a node, in the order of the records that add them. -/
def results (contents : Contents) (key : NodeKey) (records : List Record) : List DependencyResult :=
  (List.range records.length).filterMap fun position =>
    records[position]?.bind (result? contents key (records.take position))

/-- The first-level dependencies that a selector requested, in the order of their records. -/
def requestedBy (contents : Contents) (selector : Selector) (records : List Record) : List NodeKey :=
  records.filterMap fun
    | .firstLevel key => if contents.requested key = .found selector then some key else none
    | _ => none

/-- A record joins two keys when it is an edge between them, with any handle. -/
@[simp] theorem joins_iff {parent child : NodeKey} {record : Record} :
    record.joins parent child = true ↔ ∃ handle, record = .parentChild parent child handle := by
  cases record <;> simp [joins]

/-- Records join two keys when there is an edge between them. -/
@[simp] theorem any_joins_iff {parent child : NodeKey} {records : List Record} :
    records.any (joins parent child) = true ↔ ∃ handle, .parentChild parent child handle ∈ records := by
  simp only [List.any_eq_true, joins_iff]
  constructor
  · rintro ⟨_, hm, handle, rfl⟩
    exact ⟨handle, hm⟩
  · rintro ⟨handle, hm⟩
    exact ⟨_, hm, handle, rfl⟩

/-- Without records a node has no results. -/
@[simp] theorem results_nil (key : NodeKey) : results contents key [] = [] := rfl

/-- A last record adds its result at the end. -/
theorem results_concat (key : NodeKey) (records : List Record) (record : Record) :
    results contents key (records ++ [record]) =
      results contents key records ++ (record.result? contents key records).toList := by
  -- before any earlier position stand the same records as without the last one
  have hearlier : ∀ position ∈ List.range records.length,
      (records ++ [record])[position]?.bind
          (result? contents key ((records ++ [record]).take position)) =
        records[position]?.bind (result? contents key (records.take position)) := by
    intro position h
    have hlt : position < records.length := List.mem_range.1 h
    rw [List.getElem?_append_left hlt, List.take_append_of_le_length (Nat.le_of_lt hlt)]
  rw [results, List.length_append, List.length_singleton, List.range_succ, List.filterMap_append,
    List.filterMap_congr hearlier, results]
  -- the last position has all records but the last one before it
  cases h : record.result? contents key records <;> simp [h]

/-- Among no records a selector requests nothing. -/
@[simp] theorem requestedBy_nil (selector : Selector) : requestedBy contents selector [] = [] := rfl

/-- An edge of some records and a last one is an edge of the former or that one. -/
theorem exists_parentChild_mem_concat {parent child : NodeKey} {records : List Record}
    {record : Record} :
    (∃ handle, .parentChild parent child handle ∈ records ++ [record]) ↔
      (∃ handle, .parentChild parent child handle ∈ records) ∨ record.joins parent child := by
  rw [← any_joins_iff, ← any_joins_iff, List.any_append, Bool.or_eq_true, List.any_cons, List.any_nil,
    Bool.or_false]

/-- What is requested by a selector is gathered record by record. -/
theorem requestedBy_append (selector : Selector) (records others : List Record) :
    requestedBy contents selector (records ++ others) =
      requestedBy contents selector records ++ requestedBy contents selector others :=
  List.filterMap_append

/-- A selector requested the nodes of those first-level records for which the contents name it. -/
theorem mem_requestedBy_iff {selector : Selector} {records : List Record} {key : NodeKey} :
    key ∈ requestedBy contents selector records ↔
      .firstLevel key ∈ records ∧ contents.requested key = .found selector := by
  rw [requestedBy, List.mem_filterMap]
  constructor
  · rintro ⟨record, hm, hkey⟩
    cases record with
    | firstLevel other =>
      obtain ⟨hs, hkey⟩ := Option.ite_none_right_eq_some.1 hkey
      cases hkey
      exact ⟨hm, hs⟩
    | newNode | root | parentChild | unresolved => cases hkey
  · rintro ⟨hm, hs⟩
    exact ⟨_, hm, if_pos hs⟩

/-- Only records of first-level dependencies count for a selector. -/
theorem requestedBy_concat_of_ne {selector : Selector} {records : List Record} {record : Record}
    (h : ∀ key, record ≠ .firstLevel key) :
    requestedBy contents selector (records ++ [record]) = requestedBy contents selector records := by
  rw [requestedBy_append, List.append_right_eq_self]
  cases record with
  | firstLevel key => exact absurd rfl (h key)
  | newNode | root | parentChild | unresolved => rfl

end Record

/-! ## Descriptions -/

/-- A node is as the records say: its children are those that edges lead to, its parents those that
edges come from, each parent's artifacts those of all its edges and no others, and the results of its
requests those that the records add. -/
structure ResolvedNode.Described (contents : Contents) (records : List Record) (key : NodeKey)
    (node : ResolvedNode) : Prop where
  key_eq : node.key = key
  mem_children : ∀ child, child ∈ node.children ↔ ∃ handle, .parentChild key child handle ∈ records
  mem_parents : ∀ parent, parent ∈ node.parents ↔ ∃ handle, .parentChild parent key handle ∈ records
  artifacts_isSome : ∀ parent, (node.artifactsFrom? parent).isSome ↔
    ∃ handle, .parentChild parent key handle ∈ records
  mem_artifacts : ∀ parent artifact, artifact ∈ (node.artifactsFrom? parent).getD ∅ ↔
    ∃ handle set, .parentChild parent key handle ∈ records ∧
      contents.artifacts handle = .found set ∧ artifact ∈ set
  dependencies_eq : node.dependencies = Record.results contents key records

/-- **A graph is as the records say**: its root is the given one, its nodes are those registered, each
of them and each key without a node is as described, and a selector leads to the last first-level
dependency that it requested. -/
structure Graph.Described (contents : Contents) (records : List Record) (root : NodeKey) (g : Graph) :
    Prop where
  root_eq : g.root = root
  mem_nodes : ∀ key, key ∈ g.nodes ↔ .newNode key ∈ records
  nodeAt : ∀ key, (g.nodes.nodeAt key).Described contents records key
  firstLevel_eq : ∀ selector,
    g.firstLevel[selector]? = (Record.requestedBy contents selector records).getLast?

/-- The node that a described graph has under a key is as described. -/
theorem Graph.Described.node {records : List Record} {root : NodeKey} {g : Graph}
    (h : g.Described contents records root) {key : NodeKey} {node : ResolvedNode}
    (hk : g.node? key = some node) : node.Described contents records key := by
  rw [← NodeTable.nodeAt_of_getElem? hk]
  exact h.nodeAt key

/-- Nodes with the same description are equal. -/
theorem ResolvedNode.Described.eq {records : List Record} {key : NodeKey} {m n : ResolvedNode}
    (hm : m.Described contents records key) (hn : n.Described contents records key) : m = n := by
  apply ResolvedNode.eq_of_fields
  · rw [hm.key_eq, hn.key_eq]
  · intro parent
    rw [hm.mem_parents, hn.mem_parents]
  · intro child
    rw [hm.mem_children, hn.mem_children]
  · intro parent
    have hsome := (hm.artifacts_isSome parent).trans (hn.artifacts_isSome parent).symm
    have hset : (m.artifactsFrom? parent).getD ∅ = (n.artifactsFrom? parent).getD ∅ :=
      ExtTreeSet.ext_mem fun artifact =>
        (hm.mem_artifacts parent artifact).trans (hn.mem_artifacts parent artifact).symm
    -- both nodes have artifacts for the parent or neither does, and then they are the same
    cases h : m.artifactsFrom? parent <;> cases h' : n.artifactsFrom? parent <;> simp_all
  · rw [hm.dependencies_eq, hn.dependencies_eq]

/-- **A description leaves nothing open**: two graphs that it fits are equal. -/
theorem Graph.Described.eq {records : List Record} {root : NodeKey} {g g' : Graph}
    (h : g.Described contents records root) (h' : g'.Described contents records root) : g = g' := by
  have hroot : g.root = g'.root := h.root_eq.trans h'.root_eq.symm
  have hfirst : g.firstLevel = g'.firstLevel :=
    ExtTreeMap.ext_getElem? fun {selector} =>
      (h.firstLevel_eq selector).trans (h'.firstLevel_eq selector).symm
  have hnodes : g.nodes = g'.nodes :=
    NodeTable.eq_of_nodeAt (fun key => (h.mem_nodes key).trans (h'.mem_nodes key).symm)
      fun key => (h.nodeAt key).eq (h'.nodeAt key)
  cases g
  cases g'
  cases hroot
  cases hfirst
  cases hnodes
  rfl

/-! ## Steps keep the description -/

/-- A record that is no edge changes nothing about a node but the results of its requests. -/
theorem ResolvedNode.Described.concat {records : List Record} {record : Record} {key : NodeKey}
    {node : ResolvedNode} (h : node.Described contents records key)
    (hj : ∀ parent child, ¬record.joins parent child) :
    ResolvedNode.Described contents (records ++ [record]) key
      { node with results := (record.result? contents key records).toList ++ node.results } := by
  have hedge : ∀ parent child handle, .parentChild parent child handle ∈ records ++ [record] ↔
      .parentChild parent child handle ∈ records := by
    intro parent child handle
    rw [List.mem_append, List.mem_singleton, or_iff_left]
    rintro rfl
    exact hj parent child (by simp)
  refine ⟨h.key_eq, ?_, ?_, ?_, ?_, ?_⟩
  · simp only [hedge]
    exact h.mem_children
  · simp only [hedge]
    exact h.mem_parents
  · simp only [hedge]
    exact h.artifacts_isSome
  · simp only [hedge]
    exact h.mem_artifacts
  · rw [Record.results_concat, ← h.dependencies_eq]
    cases record.result? contents key records <;> simp [ResolvedNode.dependencies]

/-- An edge of a table changes its nodes as the record of the edge says, whether it is the first one
between its two ends or not, and also when these are the same node. -/
theorem NodeTable.described_connect {nodes : NodeTable} {records : List Record}
    {parent child : NodeKey} {handle : ArtifactHandle} {set : ArtifactSet}
    (h : ∀ key, (nodes.nodeAt key).Described contents records key) (hp : parent ∈ nodes)
    (hc : child ∈ nodes) (hs : contents.artifacts handle = .found set) (key : NodeKey) :
    (nodeAt (Draft.connect nodes parent child (contents.requestOf child) set) key).Described contents
      (records ++ [.parentChild parent child handle]) key := by
  have hkey := h key
  have hedge : ∀ p c,
      (∃ handle', .parentChild p c handle' ∈ records ++ [.parentChild parent child handle]) ↔
        (∃ handle', .parentChild p c handle' ∈ records) ∨ parent = p ∧ child = c := by
    intro p c
    rw [Record.exists_parentChild_mem_concat]
    simp
  refine ⟨?_, ?_, ?_, ?_, ?_, ?_⟩
  · rw [key_connect hp hc]
    exact hkey.key_eq
  · intro other
    rw [mem_children_connect hp hc, hkey.mem_children, hedge]
  · intro other
    rw [mem_parents_connect hp hc, hkey.mem_parents, hedge, and_comm (a := child = key)]
  · intro other
    rw [artifactsFrom?_connect hp hc, hedge, ← hkey.artifacts_isSome]
    by_cases hend : child = key ∧ parent = other
    · simp [hend]
    · rw [if_neg hend, and_comm, or_iff_left hend]
  · intro other artifact
    rw [artifactsFrom?_connect hp hc]
    by_cases hend : child = key ∧ parent = other
    · obtain ⟨rfl, rfl⟩ := hend
      rw [if_pos ⟨rfl, rfl⟩, Option.getD_some, ExtTreeSet.mem_union_iff, hkey.mem_artifacts]
      -- the set behind the handle is joined to those of the earlier edges
      simp only [List.mem_append, List.mem_singleton, or_and_right, exists_or]
      simp [hs]
    · -- an edge between other nodes brings nothing from this parent
      have hother : ∀ handle', .parentChild other key handle' ∈
          records ++ [.parentChild parent child handle] ↔ .parentChild other key handle' ∈ records := by
        intro handle'
        rw [List.mem_append, List.mem_singleton, or_iff_left]
        intro heq
        cases heq
        exact hend ⟨rfl, rfl⟩
      rw [if_neg hend, hkey.mem_artifacts]
      simp only [hother]
  · rw [dependencies_connect hp hc, hkey.dependencies_eq, Record.results_concat]
    have hbefore : records.any (Record.joins parent child) = true ↔
        child ∈ (nodes.nodeAt parent).children := by
      rw [Record.any_joins_iff, (h parent).mem_children]
    by_cases hpk : parent = key
    · subst hpk
      -- only the first edge to the child is the result of a request
      by_cases hmem : child ∈ (nodes.nodeAt parent).children
      · simp [Record.result?, hmem, hbefore.2 hmem]
      · simp [Record.result?, hmem, mt hbefore.1 hmem]
    · simp [Record.result?, hpk]

/-- A new node is described by a record that says nothing else. -/
theorem NodeTable.described_insert_isolated {nodes : NodeTable} {records : List Record}
    {key : NodeKey} (h : ∀ key, (nodes.nodeAt key).Described contents records key)
    (fresh : key ∉ nodes) (other : NodeKey) :
    (nodeAt (nodes.insert key (.isolated key)) other).Described contents
      (records ++ [.newNode key]) other := by
  rw [nodeAt_insert_isolated fresh]
  exact (h other).concat fun parent child => by simp

/-- A failed request changes the node that made it, and no other, as its record says. -/
theorem NodeTable.described_addFailure {nodes : NodeTable} {records : List Record} {parent : NodeKey}
    (h : ∀ key, (nodes.nodeAt key).Described contents records key) (hp : parent ∈ nodes)
    (requested : Selector) (reason : String) (key : NodeKey) :
    (nodeAt (nodes.modify parent (·.addFailure requested reason)) key).Described contents
      (records ++ [.unresolved parent requested reason]) key := by
  have hinert : ∀ p c, ¬Record.joins p c (.unresolved parent requested reason) := by simp
  have hkey := (h key).concat hinert
  rw [nodeAt_modify hp]
  by_cases hpk : parent = key
  · rw [Record.result?, if_pos hpk] at hkey
    rw [if_pos hpk]
    exact hkey
  · rw [Record.result?, if_neg hpk] at hkey
    rw [if_neg hpk]
    exact hkey

/-- No records describe a graph without nodes, accepted or not. -/
theorem Draft.described_empty (root : NodeKey) :
    (Draft.empty.graph root).Described contents [] root := by
  refine ⟨rfl, fun key => ?_, fun key => ?_, fun selector => ?_⟩
  · simp [Draft.graph, Draft.empty]
  · show (NodeTable.nodeAt ∅ key).Described contents [] key
    rw [NodeTable.nodeAt_empty]
    constructor <;> simp [ResolvedNode.isolated, ResolvedNode.artifactsFrom?, ResolvedNode.dependencies]
  · simp [Draft.graph, Draft.empty]

/-- **A step keeps the description** with its record added. -/
theorem Draft.Step.described {records : List Record} {record : Record} {root : NodeKey} {d d' : Draft}
    (hs : d.Step contents record d') (h : (d.graph root).Described contents records root) :
    (d'.graph root).Described contents (records ++ [record]) root := by
  cases hs with
  | @newNode key fresh =>
    refine ⟨rfl, fun other => ?_, fun other => ?_, fun selector => ?_⟩
    · show other ∈ d.nodes.insert key (.isolated key) ↔ _
      rw [ExtTreeMap.mem_insert, LawfulEqCmp.compare_eq_iff_eq, List.mem_append, List.mem_singleton,
        Record.newNode.injEq, or_comm, eq_comm]
      exact or_congr_left (h.mem_nodes other)
    · exact NodeTable.described_insert_isolated h.nodeAt fresh other
    · rw [Record.requestedBy_concat_of_ne (by simp)]
      exact h.firstLevel_eq selector
  | @parentChild parent child handle set hp hc ha hr =>
    refine ⟨rfl, fun other => ?_, ?_, fun selector => ?_⟩
    · show other ∈ connect d.nodes parent child _ set ↔ _
      rw [NodeTable.mem_connect]
      exact (h.mem_nodes other).trans (by simp)
    · exact NodeTable.described_connect h.nodeAt hp hc ha
    · rw [Record.requestedBy_concat_of_ne (by simp)]
      exact h.firstLevel_eq selector
  | @firstLevel key selector hk hs =>
    refine ⟨rfl, fun other => ?_, fun other => ?_, fun asked => ?_⟩
    · exact (h.mem_nodes other).trans (by simp)
    · exact (h.nodeAt other).concat fun parent child => by simp
    · show (d.firstLevel.insert selector key)[asked]? = _
      rw [ExtTreeMap.getElem?_insert, Record.requestedBy_append]
      -- only the selector of this record gets another key
      by_cases hasked : selector = asked
      · subst hasked
        simp [Record.requestedBy, hs]
      · rw [if_neg (by simpa using hasked)]
        exact (h.firstLevel_eq asked).trans (by simp [Record.requestedBy, hs, hasked])
  | @unresolved parent requested reason hp =>
    refine ⟨rfl, fun other => ?_, fun other => ?_, fun selector => ?_⟩
    · show other ∈ d.nodes.modify parent _ ↔ _
      rw [ExtTreeMap.mem_modify]
      exact (h.mem_nodes other).trans (by simp)
    · exact NodeTable.described_addFailure h.nodeAt hp requested reason other
    · rw [Record.requestedBy_concat_of_ne (by simp)]
      exact h.firstLevel_eq selector

/-- What a run makes of the empty draft is what its records describe. -/
theorem Draft.Run.described {records : List Record} {d : Draft}
    (h : Draft.empty.Run contents records d) (root : NodeKey) :
    (d.graph root).Described contents records root :=
  h.induct (P := fun before d => (d.graph root).Described contents before root)
    (fun h hs => hs.described h) (Draft.described_empty root)

/-! ## The graph of the sample log -/

namespace Sample

/-- One selector requested everything but the root. -/
def lookups : Contents :=
  ⟨fun key => if key = app then .missing else .found request, fun _ => .found ∅⟩

/-- The draft of the sample is accepted, and its first level has lost one of its two nodes. -/
theorem exists_run : ∃ d, Draft.empty.Run lookups before d ∧ app ∈ d.nodes ∧
    (d.finish app).isOk = true ∧ d.firstLevel.values = [runtime] := by
  have hcompile : lookups.requested compile = .found request := by decide
  have hruntime : lookups.requested runtime = .found request := by decide
  refine ⟨_, .cons (.newNode ?_) <| .cons (.newNode ?_) <| .cons (.newNode ?_) <|
    .cons (.parentChild ?_ ?_ rfl ?_) <| .cons (.parentChild ?_ ?_ rfl ?_) <|
    .cons (.parentChild ?_ ?_ rfl ?_) <| .cons (.unresolved ?_) <|
    .cons (.firstLevel ?_ hcompile) <| .cons (.firstLevel ?_ hruntime) <| .nil _, ?_, ?_, ?_⟩
  all_goals decide +kernel

/-- The sample has a stream, and a graph comes out of it. -/
theorem exists_graph : ∃ bytes g, Record.stream log = .ok bytes ∧
    materializeBytes lookups bytes = .ok g ∧ g.firstLevel.values = [runtime] := by
  obtain ⟨d, hrun, hk, hok, hfirst⟩ := exists_run
  have hstream : (Record.stream log).isOk = true := by decide +kernel
  obtain ⟨bytes, hs⟩ := isOk_iff_exists.1 hstream
  obtain ⟨g, hg⟩ := isOk_iff_exists.1 hok
  refine ⟨bytes, g, hs, ?_, ?_⟩
  · rw [materializeBytes_of_run named hs hrun hk, hg]
  · rw [(Draft.finish_eq_ok_iff.1 hg).1]
    exact hfirst

end Sample

/-! ## Graphs from streams -/

/-- **A graph from a stream is what the records before the first root describe**, and nothing else is. -/
theorem materializeBytes_described {records : List Record} {bytes : List UInt8} {g : Graph}
    (hs : Record.stream records = .ok bytes) (h : materializeBytes contents bytes = .ok g) :
    ∃ before root after, records = before ++ .root root :: after ∧ (∀ key, .root key ∉ before) ∧
      g.Described contents before root ∧ ∀ g', g'.Described contents before root → g' = g := by
  obtain ⟨before, root, after, d, hrecords, hrun, -, hg⟩ := exists_run_of_stream hs h
  obtain ⟨rfl, -⟩ := Draft.finish_eq_ok_iff.1 hg
  have hdescribed := hrun.described root
  exact ⟨before, root, after, hrecords, hrun.root_not_mem, hdescribed,
    fun g' h' => h'.eq hdescribed⟩

/-- The sample log is an instance. -/
theorem materializeBytes_described_sample :
    ∃ bytes g, Record.stream Sample.log = .ok bytes ∧
      materializeBytes Sample.lookups bytes = .ok g ∧
      ∃ before root after, Sample.log = before ++ .root root :: after ∧
        (∀ key, .root key ∉ before) ∧ g.Described Sample.lookups before root ∧
        ∀ g', g'.Described Sample.lookups before root → g' = g := by
  obtain ⟨bytes, g, hs, hg, -⟩ := Sample.exists_graph
  exact ⟨bytes, g, hs, hg, materializeBytes_described hs hg⟩

end ResolutionLog
