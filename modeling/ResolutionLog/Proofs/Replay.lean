import ResolutionLog.Proofs.FixtureRecords
import ResolutionLog.Proofs.Rearrangement

/-! # Replays of fixtures

What a replay gives can be told from its fixture alone. The records of a fixture register all nodes first, and
mention a node only after that; what they look up has been noted when they were written. So a graph can be refused
for two reasons only: two nodes have the same key, or a node other than the root is the child of no edge.

Main statement: `ResultFixture.replay_described`. -/

namespace ResolutionLog

open Std

variable {contents : Contents}

/-! ## Nodes first -/

namespace Record

/-- Different keys may be registered in any order. -/
theorem valid_newNodes {keys : List NodeKey} (h : keys.Nodup) : Valid contents (keys.map .newNode) := by
  induction keys using List.reverseRecOn with
  | nil => exact valid_nil
  | append_singleton keys key ih =>
    obtain ⟨hnew, hkeys⟩ := (List.nodup_concat keys key).1 (by rwa [List.concat_eq_append])
    rw [List.map_append, List.map_singleton, valid_concat_iff, forall_not_offends_iff]
    refine ⟨ih hkeys, ?_, nofun, trivial⟩
    -- only an earlier key could keep the last one from being registered
    intro other heq hm
    obtain ⟨again, hagain, hother⟩ := List.mem_map.1 hm
    cases heq
    cases hother
    exact hnew hagain

/-- **Records that register nothing** may follow records that register all that they mention. -/
theorem Valid.append {records later : List Record} (h : Valid contents records)
    (hlater : ∀ record ∈ later, (∀ key, record ≠ .newNode key) ∧
      (∀ key ∈ record.mentions, .newNode key ∈ records) ∧ record.Answered contents) :
    Valid contents (records ++ later) := by
  induction later using List.reverseRecOn with
  | nil =>
    rw [List.append_nil]
    exact h
  | append_singleton later record ih =>
    obtain ⟨hbefore, hlast⟩ := List.forall_mem_append.1 hlater
    obtain ⟨hnot, hknown, hanswered⟩ := hlast record List.mem_cons_self
    rw [← List.append_assoc, valid_concat_iff, forall_not_offends_iff]
    refine ⟨ih hbefore, ?_, ?_, hanswered⟩
    · exact fun key heq => absurd heq (hnot key)
    · exact fun key hk => List.mem_append_left later (hknown key hk)

/-- The failed request that a record notes, with the node that made it. -/
def failure? : Record → Option (NodeKey × DependencyResult)
  | .unresolved parent requested reason => some (parent, .failed requested reason)
  | _ => none

/-- The failures of one node are those that are noted with its key. -/
theorem map_filterMap_failedResult? (key : NodeKey) (records : List Record) :
    (records.filterMap (failedResult? key)).map (Prod.mk key) =
      (records.filterMap failure?).filter fun failure => failure.1 = key := by
  rw [List.map_filterMap, ← List.filterMap_eq_filter, List.filterMap_filterMap]
  apply List.filterMap_congr
  intro record _
  cases record with
  | unresolved parent requested reason =>
    by_cases h : parent = key
    · simp [failedResult?, failure?, h, Option.guard]
    · simp [failedResult?, failure?, h, Option.guard]
  | newNode | root | firstLevel | parentChild => rfl

end Record

/-! ## Lists with keys -/

/-- In a list with repetitions there is a first element that has come up before. -/
theorem exists_first_again {α : Type} {l : List α} (h : ¬l.Nodup) :
    ∃ front a rest, l = front ++ a :: rest ∧ front.Nodup ∧ a ∈ front := by
  induction l using List.reverseRecOn with
  | nil => exact absurd List.nodup_nil h
  | append_singleton l a ih =>
    by_cases hl : l.Nodup
    · -- the last element spoils it, so it must have come up before
      have ha : a ∈ l := by
        by_contra hnew
        exact h (List.concat_eq_append ▸ (List.nodup_concat l a).2 ⟨hnew, hl⟩)
      exact ⟨l, a, [], rfl, hl, ha⟩
    · obtain ⟨front, b, rest, rfl, hfront, hb⟩ := ih hl
      refine ⟨front, b, rest ++ [a], ?_, hfront, hb⟩
      rw [List.append_assoc, List.cons_append]

/-- **Sorting by keys loses nothing**: the elements under different keys are all elements, when each has one of
these keys. -/
theorem perm_flatMap_filter {κ α : Type} [DecidableEq κ] {keys : List κ} (hkeys : keys.Nodup) {key : α → κ}
    {l : List α} (hl : ∀ a ∈ l, key a ∈ keys) : (keys.flatMap fun k => l.filter fun a => key a = k).Perm l := by
  induction keys generalizing l with
  | nil =>
    have hnil : l = [] := List.eq_nil_iff_forall_not_mem.2 fun a ha => List.not_mem_nil (hl a ha)
    rw [hnil, List.flatMap_nil]
  | cons k keys ih =>
    obtain ⟨hk, hkeys⟩ := List.nodup_cons.1 hkeys
    -- under the other keys stands what does not have the first one
    have hothers : ∀ k' ∈ keys, (l.filter fun a => key a = k') =
        (l.filter fun a => key a ≠ k).filter fun a => key a = k' := by
      intro k' hk'
      rw [List.filter_filter]
      refine List.filter_congr fun a _ => ?_
      by_cases ha : key a = k'
      · have hne : key a ≠ k := fun heq => hk (heq ▸ ha ▸ hk')
        simp [ha, ha ▸ hne]
      · simp [ha]
    have hrest : ∀ a ∈ l.filter fun a => key a ≠ k, key a ∈ keys := by
      intro a ha
      obtain ⟨ha, hne⟩ := List.mem_filter.1 ha
      exact (List.mem_cons.1 (hl a ha)).resolve_left (by simpa using hne)
    rw [List.flatMap_cons, List.flatMap_congr hothers]
    refine ((ih hkeys hrest).append_left _).trans ?_
    simpa using List.filter_append_perm (fun a => key a = k) l

/-! ## What the records of a fixture say -/

namespace ResultFixture

variable {f : ResultFixture} {contents : Contents} {key root : NodeKey}

/-- The records of a fixture between its nodes and its root. -/
def laterRecords (f : ResultFixture) : List Record :=
  f.edges.filterMap f.edgeRecord? ++ f.firstLevel.filterMap f.firstLevelRecord? ++
    f.unresolved.filterMap f.unresolvedRecord?

/-- The nodes are recorded before all else. -/
theorem recordsBeforeRoot_eq (f : ResultFixture) :
    f.recordsBeforeRoot = f.keys.map .newNode ++ f.laterRecords := by
  have hnodes : f.nodes.filterMap NodeFixture.record? = f.keys.map .newNode := by
    rw [keys, List.map_filterMap]
    rfl
  rw [recordsBeforeRoot, laterRecords, hnodes, List.append_assoc, List.append_assoc, List.append_assoc]

/-- The keys of a fixture are those of its nodes. -/
theorem mem_keys_iff : key ∈ f.keys ↔ ∃ n ∈ f.nodes, n.key = .ok key := by
  rw [keys, List.mem_filterMap]
  refine exists_congr fun n => and_congr_right fun _ => ?_
  cases n.key with
  | ok other => simp [Except.toOption]
  | error e => simp [Except.toOption]

/-- Names stand for keys of nodes. -/
theorem mem_keys_of_key? {name : String} (h : f.key? name = some key) : key ∈ f.keys :=
  mem_keys_iff.2 (exists_key_of_keyNamed? h)

/-- **What a fixture says about its nodes**, as a record: an edge, a first-level dependency, or a failed request,
with the keys that the names in it stand for. -/
inductive Says (f : ResultFixture) : Record → Prop where
  | edge {e : EdgeFixture} {parent child : NodeKey} (mem : e ∈ f.edges) (parent_eq : f.key? e.parent = some parent)
      (child_eq : f.key? e.child = some child) : Says f (.parentChild parent child (f.handle e))
  | firstLevel {name : String} {key : NodeKey} (mem : name ∈ f.firstLevel) (key_eq : f.key? name = some key) :
    Says f (.firstLevel key)
  | unresolved {u : UnresolvedFixture} {parent : NodeKey} {selector : Selector} (mem : u ∈ f.unresolved)
      (parent_eq : f.key? u.parent = some parent) (parses : Selector.parse u.requested = .ok selector) :
    Says f (.unresolved parent selector u.reason)

/-- A failed request is recorded when its parent has a key and what was asked for is a proper request. -/
theorem unresolvedRecord?_eq_some_iff {u : UnresolvedFixture} {record : Record} :
    f.unresolvedRecord? u = some record ↔ ∃ parent selector, f.key? u.parent = some parent ∧
      Selector.parse u.requested = .ok selector ∧ record = .unresolved parent selector u.reason := by
  unfold unresolvedRecord?
  cases f.key? u.parent with
  | none => simp
  | some parent =>
    cases Selector.parse u.requested with
    | error e => simp [Except.toOption]
    | ok selector => simp [Except.toOption, eq_comm]

/-- **After the nodes** the records are what the fixture says about them. -/
theorem mem_laterRecords_iff {record : Record} : record ∈ f.laterRecords ↔ f.Says record := by
  simp only [laterRecords, List.mem_append, List.mem_filterMap, edgeRecord?, firstLevelRecord?,
    unresolvedRecord?_eq_some_iff, Option.bind_eq_bind, Option.bind_eq_some_iff, Option.map_eq_some_iff,
    Option.pure_def, Option.some.injEq]
  constructor
  · rintro ((⟨e, he, parent, hparent, child, hchild, rfl⟩ | ⟨name, hname, key, hkey, rfl⟩) |
      ⟨u, hu, parent, selector, hparent, hselector, rfl⟩)
    · exact .edge he hparent hchild
    · exact .firstLevel hname hkey
    · exact .unresolved hu hparent hselector
  · intro h
    cases h with
    | edge he hparent hchild => exact .inl (.inl ⟨_, he, _, hparent, _, hchild, rfl⟩)
    | firstLevel hname hkey => exact .inl (.inr ⟨_, hname, _, hkey, rfl⟩)
    | unresolved hu hparent hselector => exact .inr ⟨_, hu, _, _, hparent, hselector, rfl⟩

/-- What is recorded before the root is a node or something that the fixture says. -/
theorem mem_recordsBeforeRoot_iff {record : Record} : record ∈ f.recordsBeforeRoot ↔
    (∃ key ∈ f.keys, .newNode key = record) ∨ f.Says record := by
  rw [recordsBeforeRoot_eq, List.mem_append, List.mem_map, mem_laterRecords_iff]

/-- The records register the keys of the nodes. -/
theorem newNode_mem_iff : .newNode key ∈ f.recordsBeforeRoot ↔ key ∈ f.keys := by
  have hnot : ¬f.Says (.newNode key) := nofun
  rw [mem_recordsBeforeRoot_iff, or_iff_left hnot]
  simp

/-- There is no root before the root. -/
theorem root_not_mem (key : NodeKey) : .root key ∉ f.recordsBeforeRoot := by
  have hnot : ¬f.Says (.root key) := nofun
  rw [mem_recordsBeforeRoot_iff, or_iff_left hnot]
  simp

/-- The records hold an edge for each edge of the fixture. -/
theorem exists_parentChild_mem_iff {parent child : NodeKey} :
    (∃ handle, .parentChild parent child handle ∈ f.recordsBeforeRoot) ↔
      ∃ e ∈ f.edges, f.key? e.parent = some parent ∧ f.key? e.child = some child := by
  simp only [mem_recordsBeforeRoot_iff]
  constructor
  · rintro ⟨handle, ⟨_, _, heq⟩ | hsays⟩
    · cases heq
    · cases hsays with
      | edge he hparent hchild => exact ⟨_, he, hparent, hchild⟩
  · rintro ⟨e, he, hparent, hchild⟩
    exact ⟨_, .inr (.edge he hparent hchild)⟩

/-- The requests in the records are proper ones. -/
theorem named_of_mem_records {record : Record} (h : record ∈ f.records) : record.Named := by
  rcases List.mem_append.1 h with h | h
  · rcases mem_recordsBeforeRoot_iff.1 h with ⟨_, _, rfl⟩ | hsays
    · trivial
    · cases hsays with
      | edge => trivial
      | firstLevel => trivial
      | unresolved _ _ hselector => exact Selector.named_of_parse hselector
  · obtain ⟨_, -, rfl⟩ := Option.map_eq_some_iff.1 (Option.mem_toList.1 h)
    trivial

/-- The contents know the nodes and the artifacts of a fixture. -/
structure KnownTo (f : ResultFixture) (contents : Contents) : Prop where
  requested : ∀ key ∈ f.keys, ∃ selector, contents.requested key = .found selector
  artifacts : ∀ e ∈ f.edges, ∃ set, contents.artifacts (f.handle e) = .found set

/-- **What a fixture says** registers nothing, and what it mentions and looks up is known. -/
theorem Says.known {record : Record} (h : f.Says record) (hknown : f.KnownTo contents) :
    (∀ key, record ≠ .newNode key) ∧ (∀ key ∈ record.mentions, key ∈ f.keys) ∧ record.Answered contents := by
  cases h with
  | @edge e parent child he hparent hchild =>
    obtain ⟨selector, hselector⟩ := hknown.requested child (mem_keys_of_key? hchild)
    refine ⟨by simp, ?_, hknown.artifacts e he, by simp [hselector]⟩
    rw [Record.mentions, List.forall_mem_cons, List.forall_mem_singleton]
    exact ⟨mem_keys_of_key? hparent, mem_keys_of_key? hchild⟩
  | @firstLevel name key _ hkey =>
    refine ⟨by simp, ?_, hknown.requested key (mem_keys_of_key? hkey)⟩
    rw [Record.mentions, List.forall_mem_singleton]
    exact mem_keys_of_key? hkey
  | unresolved _ hparent _ =>
    refine ⟨by simp, ?_, trivial⟩
    rw [Record.mentions, List.forall_mem_singleton]
    exact mem_keys_of_key? hparent

/-- What was recorded is known to the tables of the recording. -/
theorem knownTo_of_reached {state : SessionState} {records : List Record} {s : FixtureRecording}
    (h : s.Reached state f.nodes f.sets records) : f.KnownTo s.tables.contents := by
  constructor
  · intro key hkey
    obtain ⟨n, hn, hnode⟩ := mem_keys_iff.1 hkey
    obtain ⟨selector, hselector⟩ := Option.isSome_iff_exists.1 (h.requested n hn key hnode)
    exact ⟨selector, congrArg Lookup.ofOption hselector⟩
  · intro e he
    have hm : e.set ∈ f.sets.eraseDups := List.mem_eraseDups.2 (List.mem_map_of_mem he)
    obtain ⟨set, hset⟩ := h.lists.known _ (List.idxOf_lt_length_iff.2 hm)
    exact ⟨set, congrArg Lookup.ofOption hset⟩

/-! ## What is asked of a fixture -/

/-- No two nodes have the same key. -/
def KeysApart (f : ResultFixture) : Prop := f.keys.Nodup

/-- A key of a node that is not the root, and to which no edge leads. -/
def Orphan (f : ResultFixture) (key : NodeKey) : Prop :=
  key ∈ f.keys ∧ f.key? f.root ≠ some key ∧ ∀ e ∈ f.edges, f.key? e.child ≠ some key

/-- **Why a fixture that can be recorded has no graph**, with the error: a node has the key of an earlier one, and
the first such node counts, or there are orphans, and the smallest one counts. -/
inductive Refused (f : ResultFixture) : LogError → Prop where
  | sameKey {front rest : List NodeKey} {key : NodeKey} (split : f.keys = front ++ key :: rest)
      (apart : front.Nodup) (again : key ∈ front) : Refused f (.duplicateNode key)
  | orphan {key : NodeKey} (apart : f.KeysApart) (orphan : f.Orphan key)
      (least : ∀ other, f.Orphan other → compare key other ≠ .gt) :
    Refused f (.orphanNode key (ExtTreeSet.ofList f.keys).toList)

/-- The ends of an edge. -/
def ends? (f : ResultFixture) (e : EdgeFixture) : Option (NodeKey × NodeKey) := do
  return (← f.key? e.parent, ← f.key? e.child)

/-- How a failed request is reported. -/
def unresolvedReport? (f : ResultFixture) (u : UnresolvedFixture) : Option UnresolvedReport := do
  return ⟨(← f.key? u.parent).display, (← (Selector.parse u.requested).toOption).display, u.reason⟩

/-- **A report fits a fixture**: it has all nodes, an edge for each two nodes between which there is one, and each
failed request. -/
structure ReportedBy (f : ResultFixture) (r : GraphReport) : Prop where
  nodeCount_eq : r.nodeCount = f.nodes.length
  edgeCount_eq : r.edgeCount = (f.edges.filterMap f.ends?).eraseDups.length
  unresolved_length : r.unresolved.length = f.unresolved.length
  unresolved_perm : r.unresolved.Perm (f.unresolved.filterMap f.unresolvedReport?)

namespace Recordable

variable (hf : f.Recordable)

include hf

/-- In a fixture that can be recorded, names of nodes stand for keys. -/
theorem exists_key? {name : String} (h : Names f.nodes name) : ∃ key, f.key? name = some key :=
  Option.isSome_iff_exists.1 ((isSome_keyNamed?_iff fun n hn => (NodeFixture.usable_iff.1 (hf.node n hn)).1).2 h)

/-- Every node has a key. -/
theorem length_keys : f.keys.length = f.nodes.length := by
  rw [keys, List.filterMap_length_eq_length]
  intro n hn
  obtain ⟨key, hkey⟩ := (NodeFixture.usable_iff.1 (hf.node n hn)).1
  rw [hkey]
  rfl

/-- The records end with the root. -/
theorem exists_records_eq : ∃ root, f.key? f.root = some root ∧ f.records = f.recordsBeforeRoot ++ [.root root] := by
  obtain ⟨root, hroot⟩ := hf.exists_key? hf.root
  refine ⟨root, hroot, ?_⟩
  rw [records, rootRecord?, hroot]
  rfl

/-- A node is an orphan among the records when it is one in the fixture. -/
theorem orphan_iff (hroot : f.key? f.root = some root) :
    Record.Orphan f.recordsBeforeRoot root key ↔ f.Orphan key := by
  have hchild : (∀ parent handle, .parentChild parent key handle ∉ f.recordsBeforeRoot) ↔
      ∀ e ∈ f.edges, f.key? e.child ≠ some key := by
    constructor
    · intro h e he hchild
      obtain ⟨parent, hparent⟩ := hf.exists_key? (hf.edge e he).2.1
      obtain ⟨handle, hm⟩ := exists_parentChild_mem_iff.2 ⟨e, he, hparent, hchild⟩
      exact h parent handle hm
    · intro h parent handle hm
      obtain ⟨e, he, -, hchild⟩ := exists_parentChild_mem_iff.1 ⟨handle, hm⟩
      exact h e he hchild
  have hne : key ≠ root ↔ f.key? f.root ≠ some key := by
    rw [hroot, Ne, Ne, Option.some.injEq, eq_comm]
  rw [Record.Orphan, Orphan, newNode_mem_iff, hne, hchild]

/-- **A fixture that can be recorded** is refused, or its keys are apart and there is no orphan. -/
theorem refused_or_connected : (∃ e, f.Refused e) ∨ f.KeysApart ∧ ∀ key, ¬f.Orphan key := by
  by_cases hapart : f.KeysApart
  · by_cases horphan : ∃ key, f.Orphan key
    · obtain ⟨key, hkey⟩ := horphan
      obtain ⟨root, hroot, -⟩ := hf.exists_records_eq
      obtain ⟨least, hleast, hmin⟩ := Record.exists_least_orphan ((hf.orphan_iff hroot).2 hkey)
      exact .inl ⟨_, .orphan hapart ((hf.orphan_iff hroot).1 hleast) fun other ho =>
        hmin other ((hf.orphan_iff hroot).2 ho)⟩
    · exact .inr ⟨hapart, not_exists.1 horphan⟩
  · obtain ⟨front, key, rest, hsplit, hfront, hkey⟩ := exists_first_again hapart
    exact .inl ⟨_, .sameKey hsplit hfront hkey⟩

end Recordable

/-! ## Records that make a graph -/

/-- **The records are valid** when the keys are apart, down to the root. -/
theorem valid_of_keysApart (hknown : f.KnownTo contents) (hapart : f.KeysApart)
    (hroot : f.key? f.root = some root) : Record.Valid contents (f.recordsBeforeRoot ++ [.root root]) := by
  have hregistered : ∀ key ∈ f.keys, .newNode key ∈ f.keys.map Record.newNode := fun key hkey =>
    List.mem_map_of_mem hkey
  have hbefore : Record.Valid contents f.recordsBeforeRoot := by
    rw [recordsBeforeRoot_eq]
    refine (Record.valid_newNodes hapart).append fun record hm => ?_
    obtain ⟨hnew, hmentions, hanswered⟩ := (mem_laterRecords_iff.1 hm).known hknown
    exact ⟨hnew, fun key hk => hregistered key (hmentions key hk), hanswered⟩
  refine hbefore.append ?_
  rw [List.forall_mem_singleton]
  refine ⟨by simp, ?_, trivial⟩
  rw [Record.mentions, List.forall_mem_singleton]
  exact newNode_mem_iff.2 (mem_keys_of_key? hroot)

/-- The keys that the records register are those of the nodes. -/
theorem registered_eq (f : ResultFixture) :
    Record.registered f.recordsBeforeRoot = (ExtTreeSet.ofList f.keys).toList := by
  apply eq_of_sorted (Record.registered_sorted _) ExtTreeSet.ordered_toList
  intro key
  rw [Record.mem_registered, newNode_mem_iff, ExtTreeSet.mem_toList, ExtTreeSet.mem_ofList, List.contains_iff_mem]

/-- **What refuses a fixture** is what is wrong with its records. -/
theorem fails_of_refused (hf : f.Recordable) (hknown : f.KnownTo contents) {e : LogError} (h : f.Refused e) :
    Record.Fails contents f.records e := by
  obtain ⟨root, hroot, hrecords⟩ := hf.exists_records_eq
  cases h with
  | @sameKey front rest key split apart again =>
    have hsplit : f.records = front.map .newNode ++
        .newNode key :: (rest.map .newNode ++ (f.laterRecords ++ [.root root])) := by
      simp [hrecords, recordsBeforeRoot_eq, split]
    have hno : ∀ key, .root key ∉ front.map Record.newNode := by
      intro other hm
      obtain ⟨_, -, heq⟩ := List.mem_map.1 hm
      cases heq
    exact .offence hsplit hno (Record.valid_newNodes apart) (.registeredTwice (List.mem_map_of_mem again))
  | @orphan key apart orphan least =>
    rw [← registered_eq]
    exact .orphan hrecords root_not_mem (valid_of_keysApart hknown apart hroot) ((hf.orphan_iff hroot).2 orphan)
      fun other ho => least other ((hf.orphan_iff hroot).1 ho)

end ResultFixture

/-! ## What a graph shows -/

namespace Graph.Described

variable {records : List Record} {root : NodeKey} {g : Graph} (h : g.Described contents records root)

include h

/-- **The failed requests of a graph** are those that its records note. -/
theorem perm_unresolved (hknown : ∀ failure ∈ records.filterMap Record.failure?, .newNode failure.1 ∈ records) :
    g.unresolved.Perm (records.filterMap Record.failure?) := by
  have hnodes : g.unresolved = g.nodes.keys.flatMap fun key =>
      (records.filterMap Record.failure?).filter fun failure => failure.1 = key := by
    rw [unresolved, NodeTable.values_eq_map_keys, List.flatMap_map]
    refine List.flatMap_congr fun key _ => ?_
    have hnode := h.nodeAt key
    rw [hnode.key_eq, hnode.dependencies_eq, Record.filter_not_isResolved_results]
    exact Record.map_filterMap_failedResult? key records
  rw [hnodes]
  refine perm_flatMap_filter ExtTreeMap.nodup_keys fun failure hm => ?_
  rw [ExtTreeMap.mem_keys, h.mem_nodes]
  exact hknown failure hm

/-- A graph has as many nodes as different keys are registered. -/
theorem size_eq {keys : List NodeKey} (hkeys : keys.Nodup) (hmem : ∀ key, key ∈ keys ↔ .newNode key ∈ records) :
    g.size = keys.length := by
  have hperm : g.nodes.keys.Perm keys := by
    rw [List.perm_ext_iff_of_nodup ExtTreeMap.nodup_keys hkeys]
    intro key
    rw [ExtTreeMap.mem_keys, h.mem_nodes, hmem]
  rw [size, ← ExtTreeMap.length_keys, hperm.length_eq]

/-- A graph has as many edges as different pairs of nodes are joined. -/
theorem edgeCount_eq {pairs : List (NodeKey × NodeKey)} (hpairs : pairs.Nodup)
    (hmem : ∀ parent child, (parent, child) ∈ pairs ↔ ∃ handle, .parentChild parent child handle ∈ records)
    (hknown : ∀ parent child handle, .parentChild parent child handle ∈ records → .newNode parent ∈ records) :
    g.edgeCount = pairs.length := by
  have hperm : (g.nodes.pairs (·.children)).Perm pairs := by
    rw [List.perm_ext_iff_of_nodup NodeTable.nodup_pairs hpairs]
    rintro ⟨parent, child⟩
    rw [NodeTable.mem_pairs, hmem, ← (h.nodeAt parent).mem_children]
    constructor
    · rintro ⟨node, hnode, hchild⟩
      rwa [NodeTable.nodeAt_of_getElem? hnode]
    · intro hchild
      -- an edge has a node at its start
      obtain ⟨handle, hm⟩ := ((h.nodeAt parent).mem_children child).1 hchild
      have hparent : parent ∈ g.nodes := (h.mem_nodes parent).2 (hknown parent child handle hm)
      exact ⟨_, NodeTable.getElem?_of_mem hparent, hchild⟩
  rw [edgeCount, ← NodeTable.length_pairs, hperm.length_eq]

end Graph.Described

namespace Sample

/-- A project needs two files of a module, which asked for another module in vain. -/
def fixture : ResultFixture where
  root := "app"
  firstLevel := ["lib"]
  nodes := [⟨"app", none, some ":app", rootBuild, "compile", none⟩,
    ⟨"lib", some "org:lib:1.0", none, rootBuild, "default", some "org:lib:1.+"⟩]
  edges := [⟨"app", "lib", ["lib-1.0.jar"]⟩, ⟨"app", "lib", ["lib-1.0.pom"]⟩]
  unresolved := [⟨"lib", "org:gone:2.0", "not found"⟩]

/-- The same without edges. -/
def scattered : ResultFixture := { fixture with edges := [] }

end Sample

/-! ## Replays -/

namespace ResultFixture

variable {f : ResultFixture} {contents : Contents} {root : NodeKey}

/-- Two keys are the ends of an edge of the fixture when an edge between them is recorded. -/
theorem mem_ends_iff {parent child : NodeKey} : (parent, child) ∈ (f.edges.filterMap f.ends?).eraseDups ↔
    ∃ handle, .parentChild parent child handle ∈ f.recordsBeforeRoot := by
  rw [List.mem_eraseDups, List.mem_filterMap, exists_parentChild_mem_iff]
  refine exists_congr fun e => and_congr_right fun _ => ?_
  simp only [ends?, Option.bind_eq_bind, Option.bind_eq_some_iff, Option.pure_def, Option.some.injEq,
    Prod.mk.injEq]
  constructor
  · rintro ⟨_, hparent, _, hchild, rfl, rfl⟩
    exact ⟨hparent, hchild⟩
  · rintro ⟨hparent, hchild⟩
    exact ⟨parent, hparent, child, hchild, rfl, rfl⟩

/-- The failures that the records note are those of the fixture. -/
theorem filterMap_failure? (f : ResultFixture) : f.recordsBeforeRoot.filterMap Record.failure? =
    f.unresolved.filterMap fun u => (f.unresolvedRecord? u).bind Record.failure? := by
  have hnodes : (f.keys.map Record.newNode).filterMap Record.failure? = [] := by
    rw [List.filterMap_map, List.filterMap_eq_nil_iff]
    exact fun key _ => rfl
  have hedges : (f.edges.filterMap f.edgeRecord?).filterMap Record.failure? = [] := by
    rw [List.filterMap_eq_nil_iff]
    intro record hm
    obtain ⟨e, -, hrecord⟩ := List.mem_filterMap.1 hm
    obtain ⟨_, -, hrecord⟩ := Option.bind_eq_some_iff.1 hrecord
    obtain ⟨_, -, hrecord⟩ := Option.bind_eq_some_iff.1 hrecord
    cases hrecord
    rfl
  have hfirst : (f.firstLevel.filterMap f.firstLevelRecord?).filterMap Record.failure? = [] := by
    rw [List.filterMap_eq_nil_iff]
    intro record hm
    obtain ⟨name, -, hrecord⟩ := List.mem_filterMap.1 hm
    obtain ⟨_, -, rfl⟩ := Option.map_eq_some_iff.1 hrecord
    rfl
  rw [recordsBeforeRoot_eq, laterRecords, List.filterMap_append, List.filterMap_append, List.filterMap_append,
    hnodes, hedges, hfirst, List.nil_append, List.nil_append, List.nil_append, List.filterMap_filterMap]

/-- **The graph of a fixture** is reported as the fixture says. -/
theorem reportedBy_of_described {g : Graph} (hf : f.Recordable) (hapart : f.KeysApart)
    (h : g.Described contents f.recordsBeforeRoot root) : f.ReportedBy g.report := by
  -- failed requests come from their records, and these from the entries of the fixture
  have hfailures : g.unresolved.Perm (f.recordsBeforeRoot.filterMap Record.failure?) := by
    refine h.perm_unresolved fun failure hm => ?_
    obtain ⟨record, hrecord, hfailure⟩ := List.mem_filterMap.1 hm
    rcases mem_recordsBeforeRoot_iff.1 hrecord with ⟨_, _, rfl⟩ | hsays
    · cases hfailure
    · cases hsays with
      | edge => cases hfailure
      | firstLevel => cases hfailure
      | unresolved _ hparent _ =>
        cases hfailure
        exact newNode_mem_iff.2 (mem_keys_of_key? hparent)
  have hperm : g.report.unresolved.Perm (f.unresolved.filterMap f.unresolvedReport?) := by
    rw [filterMap_failure?] at hfailures
    refine (hfailures.map _).trans (.of_eq ?_)
    rw [List.map_filterMap]
    refine List.filterMap_congr fun u _ => ?_
    unfold unresolvedRecord? unresolvedReport?
    cases f.key? u.parent with
    | none => rfl
    | some parent =>
      cases Selector.parse u.requested with
      | error e => rfl
      | ok selector => rfl
  refine ⟨?_, ?_, ?_, hperm⟩
  · show g.size = f.nodes.length
    rw [h.size_eq hapart fun key => newNode_mem_iff.symm, hf.length_keys]
  · show g.edgeCount = (f.edges.filterMap f.ends?).eraseDups.length
    refine h.edgeCount_eq (nodup_eraseDups _) (fun parent child => mem_ends_iff) fun parent child handle hm => ?_
    obtain ⟨e, -, hparent, -⟩ := exists_parentChild_mem_iff.1 ⟨handle, hm⟩
    exact newNode_mem_iff.2 (mem_keys_of_key? hparent)
  · rw [hperm.length_eq, List.filterMap_length_eq_length]
    intro u hu
    obtain ⟨hparent, selector, hselector⟩ := hf.unresolved u hu
    obtain ⟨parent, hparent⟩ := hf.exists_key? hparent
    rw [unresolvedReport?, hparent, hselector]
    rfl

namespace Recordable

variable (hf : f.Recordable)

include hf

/-- A fixture that can be recorded is replayed from its records, with all that they look up being known. -/
theorem exists_replay_eq : ∃ contents bytes, f.KnownTo contents ∧ Record.stream f.records = .ok bytes ∧
    f.replay .inMemory = (FixtureError.ofLog (materializeBytes contents bytes)).map Graph.report := by
  obtain ⟨s, hs⟩ := f.record_inMemory.exists_iff.2 hf
  have hreached := f.record_inMemory.of_eq_ok s hs
  refine ⟨s.tables.contents, s.recorder.store.content, knownTo_of_reached hreached, hreached.stream_eq, ?_⟩
  rw [replay, load_eq, hs]
  simp only [bind, Except.bind, hreached.state_eq]

/-- **A refused fixture** gives the error for which it is refused. -/
theorem replay_of_refused {e : LogError} (h : f.Refused e) : f.replay .inMemory = .error (.log e) := by
  obtain ⟨contents, bytes, hknown, hbytes, heq⟩ := hf.exists_replay_eq
  have hnamed : ∀ record ∈ f.records, record.Named := fun record => named_of_mem_records
  rw [heq, materializeBytes_of_fails hnamed hbytes (fails_of_refused hf hknown h)]
  rfl

/-- **A connected fixture** gives a report that fits it. -/
theorem replay_of_connected (hapart : f.KeysApart) (hno : ∀ key, ¬f.Orphan key) :
    ∃ r, f.replay .inMemory = .ok r ∧ f.ReportedBy r := by
  obtain ⟨contents, bytes, hknown, hbytes, heq⟩ := hf.exists_replay_eq
  obtain ⟨root, hroot, hrecords⟩ := hf.exists_records_eq
  have hnamed : ∀ record ∈ f.records, record.Named := fun record => named_of_mem_records
  have hvalid : Record.Valid contents (f.recordsBeforeRoot ++ [.root root]) :=
    valid_of_keysApart hknown hapart hroot
  obtain ⟨d, hrun, hmem, hfinish⟩ := exists_run_of_valid hnamed hbytes hrecords root_not_mem hvalid
  -- nothing is wrong with a record, so the run gets to the root, where it finds no orphan
  have hgraph : materializeBytes contents bytes = .ok (d.graph root) := by
    rw [hfinish, hrun.finish_of_forall_not_orphan hmem]
    intro key ho
    exact hno key ((hf.orphan_iff hroot).1 ho)
  refine ⟨(d.graph root).report, ?_, reportedBy_of_described hf hapart (hrun.described root)⟩
  rw [heq, hgraph]
  rfl

end Recordable

/-- Only what can be recorded has a report. -/
theorem recordable_of_replay {r : GraphReport} (h : f.replay .inMemory = .ok r) : f.Recordable := by
  cases hs : f.record .inMemory with
  | ok s => exact f.record_inMemory.exists_iff.1 ⟨s, hs⟩
  | error e =>
    rw [replay, load_eq, hs] at h
    cases h

/-- **What the replay of a fixture gives.**
* It is the same for each configuration of the store, unless this has to make its file and cannot. Of a fixture
  that can be recorded, the records then have more bytes than the store may keep in memory.
* There is a report exactly when the fixture can be recorded, no two nodes have the same key, and every node other
  than the root is the child of some edge.
* A report has a node for each node of the fixture, an edge for each two nodes that have one, and all failed
  requests.
* If a fixture can be recorded, only a node with the key of an earlier one and a node without parents can keep it
  from its report, and these are the errors. -/
theorem replay_described (f : ResultFixture) :
    (∀ config fault?, f.replay (.start config fault?) = f.replay .inMemory ∨
      ∃ fault, fault? = some fault ∧ f.replay (.start config fault?) = .error (.log (.io fault)) ∧
        (f.Recordable → ∃ bytes, Record.stream f.records = .ok bytes ∧ config.spillThreshold < bytes.length)) ∧
    ((∃ r, f.replay .inMemory = .ok r) ↔ f.Recordable ∧ f.KeysApart ∧ ∀ key, ¬f.Orphan key) ∧
    (∀ r, f.replay .inMemory = .ok r → f.ReportedBy r) ∧
    (f.Recordable → ∀ e, f.replay .inMemory = .error e ↔ ∃ refusal, e = .log refusal ∧ f.Refused refusal) := by
  -- there is one replay, so a report excludes every refusal
  have houtcome : ∀ r, f.replay .inMemory = .ok r →
      f.Recordable ∧ f.KeysApart ∧ (∀ key, ¬f.Orphan key) ∧ f.ReportedBy r := by
    intro r hr
    have hf := recordable_of_replay hr
    rcases hf.refused_or_connected with ⟨e, he⟩ | ⟨hapart, hno⟩
    · exact nomatch hr.symm.trans (hf.replay_of_refused he)
    · obtain ⟨r', hr', hreported⟩ := hf.replay_of_connected hapart hno
      obtain rfl := Except.ok.inj (hr.symm.trans hr')
      exact ⟨hf, hapart, hno, hreported⟩
  refine ⟨fun config fault? => ?_, ⟨?_, ?_⟩, fun r hr => (houtcome r hr).2.2.2, fun hf e => ⟨fun he => ?_, ?_⟩⟩
  · refine (f.replay_eq_or_fault config fault?).imp_right ?_
    rintro ⟨fault, hfault, hbroken, hexceeds⟩
    refine ⟨fault, hfault, hbroken, fun hf => ?_⟩
    obtain ⟨s, hs⟩ := f.record_inMemory.exists_iff.2 hf
    exact ⟨_, (f.record_inMemory.of_eq_ok s hs).stream_eq, hexceeds s hs⟩
  · rintro ⟨r, hr⟩
    obtain ⟨hf, hapart, hno, -⟩ := houtcome r hr
    exact ⟨hf, hapart, hno⟩
  · rintro ⟨hf, hapart, hno⟩
    obtain ⟨r, hr, -⟩ := hf.replay_of_connected hapart hno
    exact ⟨r, hr⟩
  · rcases hf.refused_or_connected with ⟨refusal, hrefused⟩ | ⟨hapart, hno⟩
    · refine ⟨refusal, ?_, hrefused⟩
      exact Except.error.inj (he.symm.trans (hf.replay_of_refused hrefused))
    · obtain ⟨r, hr, -⟩ := hf.replay_of_connected hapart hno
      exact nomatch hr.symm.trans he
  · rintro ⟨refusal, rfl, hrefused⟩
    exact hf.replay_of_refused hrefused

/-- The sample fixture has one report for all stores. Without its edges it can be recorded, but is refused. -/
theorem replay_described_sample :
    (∃ r, Sample.fixture.ReportedBy r ∧
      ∀ config, Sample.fixture.replay (.start config none) = .ok r) ∧
    ∃ e, Sample.scattered.Refused e ∧ Sample.scattered.replay .inMemory = .error (.log e) := by
  have hok : (Sample.fixture.replay .inMemory).isOk = true := by decide +kernel
  have hrecorded : (Sample.scattered.record .inMemory).isOk = true := by decide +kernel
  have hnot : (Sample.scattered.replay .inMemory).isOk = false := by decide +kernel
  constructor
  · obtain ⟨r, hr⟩ := isOk_iff_exists.1 hok
    obtain ⟨hsame, -, hreported, -⟩ := replay_described Sample.fixture
    refine ⟨r, hreported r hr, fun config => ?_⟩
    rcases hsame config none with heq | ⟨fault, hfault, -⟩
    · exact heq.trans hr
    · cases hfault
  · have hf : Sample.scattered.Recordable :=
      (record_inMemory _).exists_iff.1 (isOk_iff_exists.1 hrecorded)
    cases he : Sample.scattered.replay .inMemory with
    | ok r =>
      rw [he] at hnot
      cases hnot
    | error e =>
      obtain ⟨refusal, rfl, hrefused⟩ := ((replay_described Sample.scattered).2.2.2 hf e).1 he
      exact ⟨refusal, hrefused, rfl⟩

end ResultFixture

end ResolutionLog
