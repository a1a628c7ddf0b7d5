import ResolutionLog.Proofs.Attempts
import ResolutionLog.Proofs.Handles
import ResolutionLog.Proofs.Transfer

/-! # The records of a fixture

What a fixture says can be turned into records without a recorder: each of its entries stands for one record, in
the order in which the entries are recorded (`ResultFixture.records`). Names stand for the key of the last node of
that name (`ResultFixture.key?`), and handles for the places of sets of artifacts among the sets of all edges.

A recording in memory writes exactly these records. It succeeds when all entries of the fixture are usable
(`ResultFixture.Recordable`), and what it leaves behind is `FixtureRecording.Reached`, the invariant that each entry
keeps.

Main statement: `ResultFixture.record_inMemory`. -/

namespace ResolutionLog

open Std

/-! ## Usable nodes -/

namespace NodeFixture

/-- **A node names its component** when it sets exactly one of module and project: a text that is a module, or a
path and a build that are not blank. -/
inductive NamesComponent (n : NodeFixture) : Prop where
  | module {text : String} {id : ModuleId} (module_eq : n.moduleText? = some text)
      (project_eq : n.projectPath? = none) (parses : ModuleId.parse text = .ok id)
  | project {path : String} (module_eq : n.moduleText? = none) (project_eq : n.projectPath? = some path)
      (build_named : Text.isBlank n.build = false) (path_named : Text.isBlank path = false)

/-- **A node is usable** when it names its component and its configuration, and says by a proper request what it was
requested by, if it says so at all. -/
structure Usable (n : NodeFixture) : Prop where
  component : n.NamesComponent
  configuration : Text.isBlank n.configuration = false
  requested : ∀ text ∈ n.requested?, ∃ selector, Selector.parse text = .ok selector

variable {n : NodeFixture}

/-- A node has a component when it names one. -/
theorem exists_component_iff : (∃ component, n.component = .ok component) ↔ n.NamesComponent := by
  constructor
  · rintro ⟨c, h⟩
    unfold component at h
    split at h
    · next text hm hp =>
      cases hid : ModuleId.parse text with
      | ok id => exact .module hm hp hid
      | error e =>
        rw [hid] at h
        cases h
    · next path hm hp =>
      obtain ⟨id, hid, -⟩ := bind_eq_ok_iff.1 (FixtureError.ofLog_eq_ok_iff.1 h)
      obtain ⟨rfl, hb, hpath⟩ := ProjectId.checked_eq_ok_iff.1 hid
      exact .project hm hp hb hpath
    · cases h
  · intro h
    unfold component
    cases h with
    | module hm hp hid =>
      rw [hm, hp]
      exact ⟨_, congrArg (Except.map _) hid⟩
    | @project path hm hp hb hpath =>
      rw [hm, hp]
      have hid : ProjectId.checked n.build path = .ok ⟨n.build, path⟩ :=
        ProjectId.checked_eq_ok_iff.2 ⟨rfl, hb, hpath⟩
      refine ⟨.project ⟨n.build, path⟩, FixtureError.ofLog_eq_ok_iff.2 ?_⟩
      exact bind_eq_ok_iff.2 ⟨_, hid, rfl⟩

/-- A node has a key when it names its component and its configuration. -/
theorem exists_key_iff : (∃ key, n.key = .ok key) ↔
    n.NamesComponent ∧ Text.isBlank n.configuration = false := by
  rw [← exists_component_iff]
  have hchecked : ∀ component key, NodeKey.checked component n.configuration = .ok key ↔
      Text.isBlank n.configuration = false ∧ ⟨component, n.configuration⟩ = key := by
    intro component key
    simp only [NodeKey.checked, bind_eq_ok_iff, requireText_eq_ok_iff]
    constructor
    · rintro ⟨_, ⟨rfl, hc⟩, hkey⟩
      exact ⟨hc, Except.ok.inj hkey⟩
    · rintro ⟨hc, rfl⟩
      exact ⟨_, ⟨rfl, hc⟩, rfl⟩
  simp only [key, bind_eq_ok_iff, FixtureError.ofLog_eq_ok_iff, hchecked]
  constructor
  · rintro ⟨key, component, hcomponent, hc, -⟩
    exact ⟨⟨component, hcomponent⟩, hc⟩
  · rintro ⟨⟨component, hcomponent⟩, hc⟩
    exact ⟨_, component, hcomponent, hc, rfl⟩

/-- What requested a node is known when its request, if it has one, is proper. -/
theorem exists_selector_iff (key : NodeKey) : (∃ selector, n.selector key = .ok selector) ↔
    ∀ text ∈ n.requested?, ∃ selector, Selector.parse text = .ok selector := by
  unfold selector
  cases n.requested? with
  | none => simp
  | some text => simp

/-- A node is usable when it has a key and its request, if it has one, is proper. -/
theorem usable_iff : n.Usable ↔ (∃ key, n.key = .ok key) ∧
    ∀ text ∈ n.requested?, ∃ selector, Selector.parse text = .ok selector := by
  rw [exists_key_iff]
  exact ⟨fun h => ⟨⟨h.component, h.configuration⟩, h.requested⟩, fun h => ⟨h.1.1, h.1.2, h.2⟩⟩

/-- The record of a node. -/
def record? (n : NodeFixture) : Option Record := n.key.toOption.map .newNode

/-- A node with a key is recorded under it. -/
theorem record?_eq {key : NodeKey} (h : n.key = .ok key) : n.record? = some (.newNode key) := by
  rw [record?, h]
  rfl

end NodeFixture

/-- Proper requests are named. -/
theorem Selector.named_of_parse {text : String} {selector : Selector} (h : Selector.parse text = .ok selector) :
    selector.Named := by
  unfold Selector.parse at h
  split at h
  · split at h
    · exact (Selector.checkedLibrary_eq_ok_iff.1 (FixtureError.ofLog_eq_ok_iff.1 h)).2
    · exact (Selector.checkedBuild_eq_ok_iff.1 (FixtureError.ofLog_eq_ok_iff.1 h)).2
  · split at h
    · exact (Selector.checkedModule_eq_ok_iff.1 (FixtureError.ofLog_eq_ok_iff.1 h)).2
    · cases h

/-- The artifacts of an edge. -/
def EdgeFixture.set (e : EdgeFixture) : ArtifactSet := (ArtifactSet.ofFileNames e.files).toOption.getD ∅

/-! ## Names -/

/-- A name is the name of some node. -/
def Names (nodes : List NodeFixture) (name : String) : Prop := ∃ n ∈ nodes, n.name = name

/-- The key that a name stands for: that of the last node of this name. -/
def keyNamed? (nodes : List NodeFixture) (name : String) : Option NodeKey :=
  (nodes.reverse.find? (·.name = name)).bind (·.key.toOption)

/-- A last node takes its name over from the nodes before it. -/
theorem keyNamed?_concat {nodes : List NodeFixture} {n : NodeFixture} {key : NodeKey} (h : n.key = .ok key)
    (name : String) :
    keyNamed? (nodes ++ [n]) name = if n.name = name then some key else keyNamed? nodes name := by
  -- from behind, the last node is found first
  rw [keyNamed?, List.reverse_append, List.reverse_singleton, List.singleton_append, List.find?_cons]
  by_cases hname : n.name = name
  · simp only [hname, decide_true, if_true, Option.bind_some, h]
    rfl
  · simp only [hname, decide_false, if_false]
    rfl

/-- Among nodes with keys, every name of a node stands for a key. -/
theorem isSome_keyNamed?_iff {nodes : List NodeFixture} (h : ∀ n ∈ nodes, ∃ key, n.key = .ok key) {name : String} :
    (keyNamed? nodes name).isSome ↔ Names nodes name := by
  constructor
  · intro hsome
    obtain ⟨key, hkey⟩ := Option.isSome_iff_exists.1 hsome
    obtain ⟨n, hfind, -⟩ := Option.bind_eq_some_iff.1 hkey
    exact ⟨n, List.mem_reverse.1 (List.mem_of_find?_eq_some hfind), by simpa using List.find?_some hfind⟩
  · rintro ⟨n, hm, hname⟩
    have hfound : (nodes.reverse.find? (·.name = name)).isSome :=
      List.find?_isSome.2 ⟨n, List.mem_reverse.2 hm, by simpa using hname⟩
    obtain ⟨last, hlast⟩ := Option.isSome_iff_exists.1 hfound
    obtain ⟨key, hkey⟩ := h last (List.mem_reverse.1 (List.mem_of_find?_eq_some hlast))
    rw [keyNamed?, hlast, Option.bind_some, hkey]
    rfl

/-- A key that a name stands for is the key of a node. -/
theorem exists_key_of_keyNamed? {nodes : List NodeFixture} {name : String} {key : NodeKey}
    (h : keyNamed? nodes name = some key) : ∃ n ∈ nodes, n.key = .ok key := by
  obtain ⟨n, hfind, hkey⟩ := Option.bind_eq_some_iff.1 h
  refine ⟨n, List.mem_reverse.1 (List.mem_of_find?_eq_some hfind), ?_⟩
  cases hn : n.key with
  | ok other =>
    rw [hn] at hkey
    exact congrArg _ (Option.some.inj hkey)
  | error e =>
    rw [hn] at hkey
    cases hkey

/-! ## The records -/

/-- The record of an entry, if it has one, is not too long for a frame. -/
def Framed (record? : Option Record) : Prop := ∀ record ∈ record?, record.encodeBody.length ≤ frameLimit

/-- The record of an entry is framed when its body is not too long. -/
theorem framed_some_iff {record : Record} : Framed (some record) ↔ record.encodeBody.length ≤ frameLimit := by
  simp [Framed]

namespace ResultFixture

variable (f : ResultFixture)

/-- The key that a name of a fixture stands for. -/
def key? (name : String) : Option NodeKey := keyNamed? f.nodes name

/-- The keys of the nodes, in the order of the nodes. -/
def keys : List NodeKey := f.nodes.filterMap (·.key.toOption)

/-- The sets of artifacts of the edges. -/
def sets : List ArtifactSet := f.edges.map EdgeFixture.set

/-- The handle of an edge: that of its set among the sets of all edges. -/
def handle (e : EdgeFixture) : ArtifactHandle := ContentsTables.handleAmong f.sets e.set

/-- The record of an edge. -/
def edgeRecord? (e : EdgeFixture) : Option Record := do
  return .parentChild (← f.key? e.parent) (← f.key? e.child) (f.handle e)

/-- The record of a first-level dependency. -/
def firstLevelRecord? (name : String) : Option Record := (f.key? name).map .firstLevel

/-- The record of a failed request. -/
def unresolvedRecord? (u : UnresolvedFixture) : Option Record := do
  return .unresolved (← f.key? u.parent) (← (Selector.parse u.requested).toOption) u.reason

/-- The record of the root. -/
def rootRecord? : Option Record := (f.key? f.root).map .root

/-- The records of a fixture before its root. -/
def recordsBeforeRoot : List Record :=
  f.nodes.filterMap NodeFixture.record? ++ f.edges.filterMap f.edgeRecord? ++
    f.firstLevel.filterMap f.firstLevelRecord? ++ f.unresolved.filterMap f.unresolvedRecord?

/-- **The records of a fixture**, one for each entry, in the order in which they are written. -/
def records : List Record := f.recordsBeforeRoot ++ f.rootRecord?.toList

/-- **A fixture can be recorded** when all its nodes are usable, every name that it uses is the name of a node, the
files of its edges are accepted, what its failed requests asked for is a proper request, and no record is too long
for a frame. -/
structure Recordable : Prop where
  node : ∀ n ∈ f.nodes, n.Usable
  edge : ∀ e ∈ f.edges, FilesAccepted e.files ∧ Names f.nodes e.parent ∧ Names f.nodes e.child
  firstLevel : ∀ name ∈ f.firstLevel, Names f.nodes name
  unresolved : ∀ u ∈ f.unresolved,
    Names f.nodes u.parent ∧ ∃ selector, Selector.parse u.requested = .ok selector
  root : Names f.nodes f.root
  framed : ∀ record ∈ f.records, record.encodeBody.length ≤ frameLimit

end ResultFixture

/-! ## Recordings in memory -/

namespace FixtureRecording

/-- **What a recording in memory has come to**: the nodes whose keys and requests it knows, the sets of artifacts
that it has registered, and the records that it has written. -/
structure Reached (state : SessionState) (nodes : List NodeFixture) (sets : List ArtifactSet)
    (records : List Record) (s : FixtureRecording) : Prop where
  state_eq : s.recorder.state = state
  inMemory : ∃ journal, s.recorder.store = .memory journal
  stream_eq : Record.stream records = .ok s.recorder.store.content
  keyed : ∀ n ∈ nodes, ∃ key, n.key = .ok key
  keys_eq : ∀ name, s.keys[name]? = keyNamed? nodes name
  requested : ∀ n ∈ nodes, ∀ key, n.key = .ok key → (s.tables.requested? key).isSome
  lists : s.tables.Lists sets

variable {s : FixtureRecording} {nodes : List NodeFixture} {sets : List ArtifactSet} {records : List Record}

/-- A recording that begins has come to nothing. -/
theorem reached_start : Reached .recording [] [] [] ⟨.start .inMemory, .empty, ∅⟩ := by
  refine ⟨rfl, ⟨.empty, rfl⟩, Record.stream_nil, nofun, fun name => ?_, nofun, ContentsTables.lists_empty⟩
  exact ExtTreeMap.getElem?_empty

/-- **A record is written** when it is not too long for a frame. -/
theorem Reached.write (h : s.Reached .recording nodes sets records) (record : Record) :
    SucceedsIff (s.after (·.append record)) (record.encodeBody.length ≤ frameLimit)
      (Reached (Recorder.stateAfter record (.ok ())) nodes sets (records ++ [record])) := by
  obtain ⟨journal, hjournal⟩ := h.inMemory
  -- in memory a call ends as the action of its record does
  have happend : s.recorder.append record = (record.writeAction.outcome,
      ⟨.memory (journal.append record.writeAction.bytes), Recorder.stateAfter record record.writeAction.outcome,
        if record.writeAction.outcome.isOk then s.recorder.records + 1 else s.recorder.records⟩) := by
    rw [Recorder.append, h.state_eq, hjournal]
    rfl
  rw [after_append_eq, happend]
  by_cases hl : record.encodeBody.length ≤ frameLimit
  · have hframe : record.frame = .ok (.ofBody record.kind record.encodeBody) :=
      Record.frame_eq_ok_iff.2 ⟨hl, rfl⟩
    have haction : record.writeAction = .ofParts [(Frame.ofBody record.kind record.encodeBody).header,
        (Frame.ofBody record.kind record.encodeBody).body] (.ok ()) := by
      rw [Record.writeAction, hframe]
    rw [haction]
    refine (SucceedsIff.of_ok ⟨rfl, ⟨_, rfl⟩, ?_, h.keyed, h.keys_eq, h.requested, h.lists⟩).congr
      (iff_of_true trivial hl)
    rw [Record.stream_concat h.stream_eq hframe, hjournal]
    simp [Store.content, Journal.bytes_append, Frame.bytes]
  · have haction : record.writeAction.outcome =
        .error (.unencodable (.oversizedBody record.kind record.encodeBody.length)) := by
      simp [Record.writeAction, Record.frame, hl]
    rw [haction]
    refine ⟨iff_of_false ?_ hl, ?_⟩
    · rintro ⟨_, ⟨⟩⟩
    · rintro _ ⟨⟩

/-- A name is looked up with success when it is the name of a node. -/
theorem Reached.key {state : SessionState} (h : s.Reached state nodes sets records) (name : String) :
    SucceedsIff (s.key name) (Names nodes name) fun key => keyNamed? nodes name = some key := by
  rw [← isSome_keyNamed?_iff h.keyed, FixtureRecording.key, h.keys_eq]
  cases keyNamed? nodes name with
  | none =>
    refine ⟨by simp, ?_⟩
    rintro _ ⟨⟩
  | some key => exact ⟨by simp, fun other hother => congrArg some (Except.ok.inj hother)⟩

/-- **A usable node** is recorded with its key, and with what requested it. -/
theorem Reached.addNode (h : s.Reached .recording nodes [] records) (n : NodeFixture) :
    SucceedsIff (s.addNode n) (n.Usable ∧ Framed n.record?)
      (Reached .recording (nodes ++ [n]) [] (records ++ n.record?.toList)) := by
  rw [NodeFixture.usable_iff, and_assoc]
  refine (SucceedsIff.self Iff.rfl).bind fun key hkey => ?_
  have hrecord := NodeFixture.record?_eq hkey
  refine (SucceedsIff.self (NodeFixture.exists_selector_iff key)).bind fun requested _ => ?_
  refine ((h.write (.newNode key)).congr (hrecord ▸ framed_some_iff.symm)).thenOk fun s' hs => ?_
  refine ⟨hs.state_eq, hs.inMemory, ?_, ?_, ?_, ?_, hs.lists.request key _⟩
  · rw [hrecord]
    exact hs.stream_eq
  · intro m hm
    rcases List.mem_append.1 hm with hm | hm
    · exact hs.keyed m hm
    · rw [List.mem_singleton.1 hm]
      exact ⟨key, hkey⟩
  · intro name
    rw [keyNamed?_concat hkey, ← hs.keys_eq, ExtTreeMap.getElem?_insert]
    simp only [LawfulEqCmp.compare_eq_iff_eq]
  · -- a key that two nodes have keeps what requested the later one
    intro m hm other hother
    rw [ContentsTables.requested?_request]
    by_cases heq : key = other
    · rw [if_pos heq]
      rfl
    · rw [if_neg heq]
      rcases List.mem_append.1 hm with hm | hm
      · exact hs.requested m hm other hother
      · rw [List.mem_singleton.1 hm, hkey] at hother
        exact absurd (Except.ok.inj hother) heq

/-- A set of artifacts is registered after those that have come up before. -/
theorem Reached.register {state : SessionState} (h : s.Reached state nodes sets records) (set : ArtifactSet) :
    Reached state nodes (sets ++ [set]) records { s with tables := (s.tables.register set).2 } := by
  refine ⟨h.state_eq, h.inMemory, h.stream_eq, h.keyed, h.keys_eq, ?_, h.lists.register set⟩
  intro n hn key hkey
  rw [ContentsTables.requested?_register]
  exact h.requested n hn key hkey

end FixtureRecording

namespace ResultFixture

open FixtureRecording (Reached)

variable {f : ResultFixture} {s : FixtureRecording} {records : List Record}

/-- **An edge** is recorded with the handle of its set of artifacts. -/
theorem reached_addEdge {front rest : List EdgeFixture} {e : EdgeFixture} (hsplit : f.edges = front ++ e :: rest)
    (h : Reached .recording f.nodes (front.map EdgeFixture.set) records s) :
    SucceedsIff (s.addEdge e)
      (FilesAccepted e.files ∧ Names f.nodes e.parent ∧ Names f.nodes e.child ∧
        Framed (f.edgeRecord? e))
      (Reached .recording f.nodes ((front ++ [e]).map EdgeFixture.set)
        (records ++ (f.edgeRecord? e).toList)) := by
  refine (SucceedsIff.self ?_).bind fun set hset => ?_
  · simp only [FixtureError.ofLog_eq_ok_iff]
    exact exists_ofFileNames_iff
  obtain rfl : e.set = set := by
    rw [EdgeFixture.set, FixtureError.ofLog_eq_ok_iff.1 hset]
    rfl
  -- the set keeps the handle that it has among the sets up to this edge
  have hhandle : (s.tables.register e.set).1 = f.handle e := by
    rw [handle, sets, hsplit, List.map_append, List.map_cons]
    exact h.lists.handle_register e.set (rest.map EdgeFixture.set)
  refine (h.key e.parent).bind fun parent hparent => (h.key e.child).bind fun child hchild => ?_
  have hrecord : f.edgeRecord? e = some (.parentChild parent child (s.tables.register e.set).1) := by
    rw [edgeRecord?, key?, hparent, key?, hchild, hhandle]
    rfl
  rw [hrecord, List.map_append, List.map_singleton]
  exact ((h.register e.set).write (.parentChild parent child _)).congr framed_some_iff.symm

/-- **A first-level dependency** is recorded with the key of its name. -/
theorem reached_addFirstLevel (h : Reached .recording f.nodes f.sets records s) (name : String) :
    SucceedsIff (s.addFirstLevel name)
      (Names f.nodes name ∧ Framed (f.firstLevelRecord? name))
      (Reached .recording f.nodes f.sets (records ++ (f.firstLevelRecord? name).toList)) := by
  refine (h.key name).bind fun key hkey => ?_
  have hrecord : f.firstLevelRecord? name = some (.firstLevel key) := by
    rw [firstLevelRecord?, key?, hkey]
    rfl
  rw [hrecord]
  exact (h.write (.firstLevel key)).congr framed_some_iff.symm

/-- **A failed request** is recorded with the key of its parent, as it was made. -/
theorem reached_addUnresolved (h : Reached .recording f.nodes f.sets records s) (u : UnresolvedFixture) :
    SucceedsIff (s.addUnresolved u)
      (Names f.nodes u.parent ∧ (∃ selector, Selector.parse u.requested = .ok selector) ∧
        Framed (f.unresolvedRecord? u))
      (Reached .recording f.nodes f.sets (records ++ (f.unresolvedRecord? u).toList)) := by
  refine (h.key u.parent).bind fun parent hparent => (SucceedsIff.self Iff.rfl).bind fun selector hselector => ?_
  have hrecord : f.unresolvedRecord? u = some (.unresolved parent selector u.reason) := by
    rw [unresolvedRecord?, key?, hparent, hselector]
    rfl
  rw [hrecord]
  exact (h.write (.unresolved parent selector u.reason)).congr framed_some_iff.symm

/-- **The root** completes the recording. -/
theorem reached_addRoot (h : Reached .recording f.nodes f.sets records s) :
    SucceedsIff (s.addRoot f.root)
      (Names f.nodes f.root ∧ Framed f.rootRecord?)
      (Reached .complete f.nodes f.sets (records ++ f.rootRecord?.toList)) := by
  refine (h.key f.root).bind fun key hkey => ?_
  have hrecord : f.rootRecord? = some (.root key) := by
    rw [rootRecord?, key?, hkey]
    rfl
  rw [hrecord]
  exact (h.write (.root key)).congr framed_some_iff.symm

/-- **Entries of one kind** are recorded one after the other, when each of them is. -/
theorem reached_entries {α : Type} {add : FixtureRecording → α → Except FixtureError FixtureRecording}
    {entries : List α} {accepted : α → Prop} {record? : α → Option Record} (nodes : List α → List NodeFixture)
    (sets : List α → List ArtifactSet)
    (hadd : ∀ front a rest s records, entries = front ++ a :: rest →
      Reached .recording (nodes front) (sets front) records s →
      SucceedsIff (add s a) (accepted a)
        (Reached .recording (nodes (front ++ [a])) (sets (front ++ [a])) (records ++ (record? a).toList)))
    (h : Reached .recording (nodes []) (sets []) records s) :
    SucceedsIff (entries.foldlM add s) (∀ a ∈ entries, accepted a)
      (Reached .recording (nodes entries) (sets entries) (records ++ entries.filterMap record?)) := by
  have hnext : ∀ front a rest s, entries = front ++ a :: rest →
      Reached .recording (nodes front) (sets front) (records ++ front.filterMap record?) s →
      SucceedsIff (add s a) (accepted a)
        (Reached .recording (nodes (front ++ [a])) (sets (front ++ [a]))
          (records ++ (front ++ [a]).filterMap record?)) := by
    intro front a rest s hsplit hs
    have hlast : [a].filterMap record? = (record? a).toList := by cases h : record? a <;> simp [h]
    rw [List.filterMap_append, hlast, ← List.append_assoc]
    exact hadd front a rest s _ hsplit hs
  refine SucceedsIff.foldlM hnext ?_
  rwa [List.filterMap_nil, List.append_nil]

/-- A fixture can be recorded when each of its entries can. -/
theorem recordable_iff : f.Recordable ↔
    (∀ n ∈ f.nodes, n.Usable ∧ Framed n.record?) ∧
      (∀ e ∈ f.edges, FilesAccepted e.files ∧ Names f.nodes e.parent ∧ Names f.nodes e.child ∧
        Framed (f.edgeRecord? e)) ∧
      (∀ name ∈ f.firstLevel, Names f.nodes name ∧ Framed (f.firstLevelRecord? name)) ∧
      (∀ u ∈ f.unresolved, Names f.nodes u.parent ∧ (∃ selector, Selector.parse u.requested = .ok selector) ∧
        Framed (f.unresolvedRecord? u)) ∧
      Names f.nodes f.root ∧ Framed f.rootRecord? := by
  have hentries : ∀ {α : Type} (l : List α) (record? : α → Option Record),
      (∀ record ∈ l.filterMap record?, record.encodeBody.length ≤ frameLimit) ↔ ∀ a ∈ l, Framed (record? a) := by
    intro α l record?
    simp only [List.mem_filterMap, Framed, Option.mem_def]
    exact ⟨fun h a ha record hr => h record ⟨a, ha, hr⟩, fun h record ⟨a, ha, hr⟩ => h a ha record hr⟩
  have hroot : (∀ record ∈ f.rootRecord?.toList, record.encodeBody.length ≤ frameLimit) ↔ Framed f.rootRecord? := by
    simp only [Option.mem_toList, Option.mem_def, Framed]
  -- the bound on all records is a bound on the record of each entry
  have hframed : (∀ record ∈ f.records, record.encodeBody.length ≤ frameLimit) ↔
      (∀ n ∈ f.nodes, Framed n.record?) ∧ (∀ e ∈ f.edges, Framed (f.edgeRecord? e)) ∧
        (∀ name ∈ f.firstLevel, Framed (f.firstLevelRecord? name)) ∧
        (∀ u ∈ f.unresolved, Framed (f.unresolvedRecord? u)) ∧ Framed f.rootRecord? := by
    simp only [records, recordsBeforeRoot, List.forall_mem_append, hentries, hroot, and_assoc]
  constructor
  · intro h
    obtain ⟨hnode, hedge, hfirst, hunresolved, hroot⟩ := hframed.1 h.framed
    refine ⟨fun n hn => ⟨h.node n hn, hnode n hn⟩, fun e he => ?_,
      fun name hm => ⟨h.firstLevel name hm, hfirst name hm⟩, fun u hu => ?_, h.root, hroot⟩
    · obtain ⟨hfiles, hparent, hchild⟩ := h.edge e he
      exact ⟨hfiles, hparent, hchild, hedge e he⟩
    · obtain ⟨hparent, hselector⟩ := h.unresolved u hu
      exact ⟨hparent, hselector, hunresolved u hu⟩
  · rintro ⟨hnode, hedge, hfirst, hunresolved, hroot, hlast⟩
    refine ⟨fun n hn => (hnode n hn).1, fun e he => ?_, fun name hm => (hfirst name hm).1, fun u hu => ?_, hroot, ?_⟩
    · obtain ⟨hfiles, hparent, hchild, -⟩ := hedge e he
      exact ⟨hfiles, hparent, hchild⟩
    · obtain ⟨hparent, hselector, -⟩ := hunresolved u hu
      exact ⟨hparent, hselector⟩
    · exact hframed.2 ⟨fun n hn => (hnode n hn).2, fun e he => (hedge e he).2.2.2,
        fun name hm => (hfirst name hm).2, fun u hu => (hunresolved u hu).2.2, hlast⟩

/-- **Recording a fixture in memory** succeeds when the fixture can be recorded, and then its records have been
written, to the root. -/
theorem record_inMemory (f : ResultFixture) :
    SucceedsIff (f.record .inMemory) f.Recordable (Reached .complete f.nodes f.sets f.records) := by
  refine SucceedsIff.congr ?_ recordable_iff.symm
  -- entries of each kind start from what those of the kind before have left
  refine (reached_entries (fun front => front) (fun _ => []) (fun front n rest s records _ h => h.addNode n)
    FixtureRecording.reached_start).bind fun s hnodes => ?_
  refine (reached_entries (fun _ => f.nodes) (fun front => front.map EdgeFixture.set)
    (fun front e rest s records hsplit h => reached_addEdge hsplit h) hnodes).bind fun s hedges => ?_
  refine (reached_entries (fun _ => f.nodes) (fun _ => f.sets)
    (fun front name rest s records _ h => reached_addFirstLevel h name) hedges).bind fun s hfirst => ?_
  refine (reached_entries (fun _ => f.nodes) (fun _ => f.sets)
    (fun front u rest s records _ h => reached_addUnresolved h u) hfirst).bind fun s hunresolved => ?_
  exact reached_addRoot hunresolved

end ResultFixture

end ResolutionLog
