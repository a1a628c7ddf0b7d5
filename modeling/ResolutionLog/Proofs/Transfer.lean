import ResolutionLog.Fixture.Resolution
import ResolutionLog.Proofs.Loading

/-! # One recording on two media

What a fixture gives does not depend on where its records are stored. To see this, its recording with a spilling
store and its recording in memory are followed step by step. Both do the same: they fail at the same step with the
same error, or go on with stores that have the same bytes. The only way out is a spilling store that has more bytes
than it may keep in memory and cannot make its file. Then the replay ends with this fault and nothing else.

`EndsLike` compares the ends of both recordings, and a step is `Uniform` when it keeps the comparison. All steps of
`ResultFixture.record` are put together from a few uniform ones.

Main statement: `ResultFixture.replay_eq_or_fault`. -/

namespace ResolutionLog

/-! ## Stores with the same bytes -/

variable {threshold : Nat} {fault? : Option IoFault}

/-- A spilling store and a store in memory have the same bytes. -/
inductive Store.Alike (threshold : Nat) (fault? : Option IoFault) : Store → Store → Prop where
  | intro {store : SpillStore} {journal : Journal} (threshold_eq : store.threshold = threshold)
      (fault?_eq : store.fault? = fault?) (written_le : store.written ≤ journal.bytes.length)
      (content_eq : store.content = journal.bytes) : Alike threshold fault? (.spill store) (.memory journal)

/-- A store in memory has more bytes than a spilling store may keep there. -/
def Store.Exceeds (threshold : Nat) (s : Store) : Prop :=
  ∃ journal, s = .memory journal ∧ threshold < journal.bytes.length

/-- Empty stores are alike. -/
theorem Store.alike_start (config : StoreConfig) (fault? : Option IoFault) :
    Alike config.spillThreshold fault? (start config fault?) inMemory := .intro rfl rfl (Nat.zero_le _) rfl

/-- Stores that are alike have the same bytes. -/
theorem Store.Alike.content_eq {s t : Store} (h : s.Alike threshold fault? t) : s.content = t.content := by
  cases h with
  | intro _ _ _ content_eq => exact content_eq

/-- **A write keeps stores alike** and ends in the same way, unless the spilling store has too many bytes and cannot
make its file. -/
theorem Store.Alike.write {s t : Store} (h : s.Alike threshold fault? t) (a : WriteAction) :
    ((s.write a).1 = (t.write a).1 ∧ (s.write a).2.Alike threshold fault? (t.write a).2) ∨
      ∃ fault, fault? = some fault ∧ (s.write a).1 = .error (.io fault) ∧ (t.write a).2.Exceeds threshold := by
  cases h with
  | @intro store journal threshold_eq fault?_eq written_le content_eq =>
    subst threshold_eq fault?_eq
    obtain ⟨hfault, hthreshold, hwritten, houtcome⟩ := store.write_fault a
    have hbytes : (journal.append a.bytes).bytes = journal.bytes ++ a.bytes := Journal.bytes_append _ _
    -- what the spilling store counts is at most what both stores hold
    have hmore : store.written + a.bytes.length ≤ (journal.append a.bytes).bytes.length := by
      rw [hbytes, List.length_append]
      exact Nat.add_le_add_right written_le _
    rcases houtcome with houtcome | ⟨fault, hsome, hbroken, hlt⟩
    · refine .inl ⟨houtcome, .intro hthreshold hfault (Nat.le_trans hwritten hmore) ?_⟩
      show (store.write a).2.content = (journal.append a.bytes).bytes
      rw [SpillStore.content_write, content_eq, hbytes]
    · exact .inr ⟨fault, hsome, hbroken, _, rfl, Nat.lt_of_lt_of_le hlt hmore⟩

/-- Bytes that are too many stay too many. -/
theorem Store.Exceeds.write {s : Store} (h : s.Exceeds threshold) (a : WriteAction) :
    (s.write a).2.Exceeds threshold := by
  obtain ⟨journal, rfl, hlt⟩ := h
  refine ⟨journal.append a.bytes, rfl, ?_⟩
  rw [Journal.bytes_append, List.length_append]
  exact Nat.lt_add_right _ hlt

/-! ## Sessions with the same bytes -/

/-- Two sessions are in the same state, with stores of the same bytes. -/
structure Recorder.Alike (threshold : Nat) (fault? : Option IoFault) (r t : Recorder) : Prop where
  state_eq : r.state = t.state
  store : r.store.Alike threshold fault? t.store

/-- **A call keeps sessions alike** and ends in the same way, unless the spilling store has too many bytes and cannot
make its file. -/
theorem Recorder.Alike.append {r t : Recorder} (h : r.Alike threshold fault? t) (record : Record) :
    ((r.append record).1 = (t.append record).1 ∧ (r.append record).2.Alike threshold fault? (t.append record).2) ∨
      ∃ fault, fault? = some fault ∧ (r.append record).1 = .error (.io fault) ∧
        (t.append record).2.store.Exceeds threshold := by
  cases hstate : r.state with
  | complete =>
    rw [append_of_complete hstate, append_of_complete (h.state_eq.symm.trans hstate)]
    exact .inl ⟨rfl, h⟩
  | failed =>
    rw [append_of_failed hstate, append_of_failed (h.state_eq.symm.trans hstate)]
    exact .inl ⟨rfl, h⟩
  | recording =>
    have hstate' := h.state_eq.symm.trans hstate
    rw [Recorder.append, Recorder.append, hstate, hstate']
    rcases h.store.write record.writeAction with ⟨hresult, hstore⟩ | hbroken
    · exact .inl ⟨hresult, congrArg (stateAfter record) hresult, hstore⟩
    · exact .inr hbroken

/-- A store that exceeds the threshold does so after a further record. -/
theorem Recorder.exceeds_append {r : Recorder} (h : r.store.Exceeds threshold) (record : Record) :
    (r.append record).2.store.Exceeds threshold := by
  cases hstate : r.state with
  | complete =>
    rw [append_of_complete hstate]
    exact h
  | failed =>
    rw [append_of_failed hstate]
    exact h
  | recording =>
    rw [append, hstate]
    exact h.write record.writeAction

/-! ## Uniform steps of a recording -/

namespace FixtureRecording

/-- Two recordings know the same names and contents, and their sessions are alike. -/
structure Alike (threshold : Nat) (fault? : Option IoFault) (s t : FixtureRecording) : Prop where
  recorder : s.recorder.Alike threshold fault? t.recorder
  tables_eq : s.tables = t.tables
  keys_eq : s.keys = t.keys

/-- Recordings that are alike know the same names. -/
theorem Alike.key_eq {s t : FixtureRecording} (h : s.Alike threshold fault? t) (name : String) :
    s.key name = t.key name := by rw [key, key, h.keys_eq]

/-- **Two recordings end alike**: with the same error, or with recordings that are alike. The first one may instead
be broken off by the fault of its store, which the second one can only pass with too many bytes. -/
inductive EndsLike (threshold : Nat) (fault? : Option IoFault) :
    Except FixtureError FixtureRecording → Except FixtureError FixtureRecording → Prop where
  | ok {s t : FixtureRecording} (alike : s.Alike threshold fault? t) : EndsLike threshold fault? (.ok s) (.ok t)
  | error (e : FixtureError) : EndsLike threshold fault? (.error e) (.error e)
  | broken {fault : IoFault} {y : Except FixtureError FixtureRecording} (occurs : fault? = some fault)
      (exceeds : ∀ t, y = .ok t → t.recorder.store.Exceeds threshold) :
    EndsLike threshold fault? (.error (.log (.io fault))) y

/-- **A step is uniform** when it takes recordings that are alike to ends that are alike, and never makes too many
bytes fewer. -/
structure Uniform (threshold : Nat) (fault? : Option IoFault)
    (step : FixtureRecording → Except FixtureError FixtureRecording) : Prop where
  endsLike : ∀ s t, s.Alike threshold fault? t → EndsLike threshold fault? (step s) (step t)
  exceeds : ∀ t t', t.recorder.store.Exceeds threshold → step t = .ok t' → t'.recorder.store.Exceeds threshold

/-- A call is made, and its result decides whether there is a recording after it. -/
theorem after_append_eq (s : FixtureRecording) (record : Record) :
    s.after (·.append record) = (FixtureError.ofLog (s.recorder.append record).1).map fun _ =>
      { s with recorder := (s.recorder.append record).2 } := rfl

namespace Uniform

/-- **Writing a record** is uniform. -/
theorem write (record : Record) : Uniform threshold fault? (·.after (·.append record)) := by
  constructor
  · intro s t h
    rw [after_append_eq, after_append_eq]
    rcases h.recorder.append record with ⟨hresult, hrecorder⟩ | ⟨fault, hfault, hbroken, hexceeds⟩
    · rw [← hresult]
      cases (s.recorder.append record).1 with
      | ok _ => exact .ok ⟨hrecorder, h.tables_eq, h.keys_eq⟩
      | error e => exact .error _
    · -- the other recording may go on, but then it has written the record
      rw [hbroken]
      refine .broken hfault fun t' ht => ?_
      cases hresult : (t.recorder.append record).1 with
      | ok _ =>
        rw [hresult] at ht
        cases ht
        exact hexceeds
      | error e =>
        rw [hresult] at ht
        cases ht
  · intro t t' h ht
    rw [after_append_eq] at ht
    cases hresult : (t.recorder.append record).1 with
    | ok _ =>
      rw [hresult] at ht
      cases ht
      exact Recorder.exceeds_append h record
    | error e =>
      rw [hresult] at ht
      cases ht

/-- Noting what is known beside the records is uniform. -/
theorem note (noted : FixtureRecording → ContentsTables × Std.ExtTreeMap String NodeKey)
    (hsame : ∀ s t, s.Alike threshold fault? t → noted s = noted t) :
    Uniform threshold fault? fun s => .ok { s with tables := (noted s).1, keys := (noted s).2 } := by
  constructor
  · intro s t h
    exact .ok ⟨h.recorder, congrArg Prod.fst (hsame s t h), congrArg Prod.snd (hsame s t h)⟩
  · intro t t' h ht
    cases ht
    exact h

/-- A uniform step may go on from another one. -/
theorem andThen {step next : FixtureRecording → Except FixtureError FixtureRecording}
    (hstep : Uniform threshold fault? step) (hnext : Uniform threshold fault? next) :
    Uniform threshold fault? fun s => step s >>= next := by
  have hexceeds : ∀ y : Except FixtureError FixtureRecording,
      (∀ t, y = .ok t → t.recorder.store.Exceeds threshold) →
      ∀ t', y >>= next = .ok t' → t'.recorder.store.Exceeds threshold := by
    intro y hy t' ht
    obtain ⟨t, heq, ht'⟩ := bind_eq_ok_iff.1 ht
    exact hnext.exceeds t t' (hy t heq) ht'
  constructor
  · intro s t h
    have hends := hstep.endsLike s t h
    revert hends
    generalize step s = x
    generalize step t = y
    intro hends
    cases hends with
    | ok alike => exact hnext.endsLike _ _ alike
    | error e => exact .error e
    | broken occurs exceeds =>
      -- the next step is taken in memory only, where it leaves too many bytes as it found them
      exact .broken occurs (hexceeds y exceeds)
  · intro t t' h ht
    exact hexceeds (step t) (fun s hs => hstep.exceeds t s h hs) t' ht

/-- A uniform step may depend on what is looked up before it, as long as recordings that are alike find the same. -/
theorem lookUp {β : Type} {found : FixtureRecording → Except FixtureError β}
    {step : β → FixtureRecording → Except FixtureError FixtureRecording}
    (hsame : ∀ s t, s.Alike threshold fault? t → found s = found t)
    (hstep : ∀ b, Uniform threshold fault? (step b)) : Uniform threshold fault? fun s => found s >>= (step · s) := by
  constructor
  · intro s t h
    simp only [hsame s t h]
    cases found t with
    | ok b => exact (hstep b).endsLike s t h
    | error e => exact .error e
  · intro t t' h ht
    obtain ⟨b, -, hb⟩ := bind_eq_ok_iff.1 ht
    exact (hstep b).exceeds t t' h hb

/-- What does not depend on a recording is found in the same way by all of them. -/
theorem compute {β : Type} (x : Except FixtureError β)
    {step : β → FixtureRecording → Except FixtureError FixtureRecording}
    (hstep : ∀ b, Uniform threshold fault? (step b)) : Uniform threshold fault? fun s => x >>= (step · s) :=
  lookUp (fun _ _ _ => rfl) hstep

/-- To look up a name before a uniform step is uniform. -/
theorem lookUpKey (name : String) {step : NodeKey → FixtureRecording → Except FixtureError FixtureRecording}
    (hstep : ∀ key, Uniform threshold fault? (step key)) :
    Uniform threshold fault? fun s => s.key name >>= (step · s) :=
  lookUp (fun _ _ h => h.key_eq name) hstep

/-- **Going over a list** is uniform when each of its steps is. -/
theorem foldlM {α : Type} {add : FixtureRecording → α → Except FixtureError FixtureRecording}
    (hadd : ∀ a, Uniform threshold fault? (add · a)) (l : List α) :
    Uniform threshold fault? (l.foldlM add ·) := by
  induction l with
  | nil => exact ⟨fun s t h => .ok h, fun t t' h ht => Except.ok.inj ht ▸ h⟩
  | cons a l ih =>
    simp only [List.foldlM_cons]
    exact (hadd a).andThen ih

end Uniform

/-! ## The steps of a fixture -/

/-- To record a node is uniform. -/
theorem uniform_addNode (n : NodeFixture) : Uniform threshold fault? (·.addNode n) := by
  refine .compute n.key fun key => .compute (n.selector key) fun requested => ?_
  refine (Uniform.write (.newNode key)).andThen ?_
  refine .note (fun s => (s.tables.request key requested, s.keys.insert n.name key)) fun s t h => ?_
  rw [h.tables_eq, h.keys_eq]

/-- To record an edge is uniform. -/
theorem uniform_addEdge (e : EdgeFixture) : Uniform threshold fault? (·.addEdge e) := by
  refine .compute _ fun set => ?_
  -- the set is registered before the names are looked up, but is noted only if both are found
  show Uniform threshold fault? fun s => Except.ok (s.tables.register set) >>= fun registered =>
    s.key e.parent >>= fun parent => s.key e.child >>= fun child =>
      Except.ok { s with tables := registered.2, keys := s.keys } >>= fun s =>
        s.after (·.parentChild parent child registered.1)
  refine .lookUp (fun s t h => by rw [h.tables_eq]) fun registered => ?_
  refine .lookUpKey e.parent fun parent => .lookUpKey e.child fun child => ?_
  refine Uniform.andThen ?_ (.write (.parentChild parent child registered.1))
  exact .note (fun s => (registered.2, s.keys)) fun s t h => by rw [h.keys_eq]

/-- To record a first-level dependency is uniform. -/
theorem uniform_addFirstLevel (name : String) : Uniform threshold fault? (·.addFirstLevel name) :=
  .lookUpKey name fun key => .write (.firstLevel key)

/-- To record a failed request is uniform. -/
theorem uniform_addUnresolved (u : UnresolvedFixture) : Uniform threshold fault? (·.addUnresolved u) :=
  .lookUpKey u.parent fun parent => .compute _ fun requested => .write (.unresolved parent requested u.reason)

/-- To record the root is uniform. -/
theorem uniform_addRoot (name : String) : Uniform threshold fault? (·.addRoot name) :=
  .lookUpKey name fun key => .write (.root key)

end FixtureRecording

/-! ## Replays -/

namespace ResultFixture

variable (f : ResultFixture)

open FixtureRecording

/-- **Recording a fixture** with a spilling store ends like recording it in memory. -/
theorem record_endsLike (config : StoreConfig) (fault? : Option IoFault) :
    EndsLike config.spillThreshold fault? (f.record (.start config fault?)) (f.record .inMemory) := by
  have hsteps : Uniform config.spillThreshold fault? fun s => f.nodes.foldlM addNode s >>= fun s =>
      f.edges.foldlM addEdge s >>= fun s => f.firstLevel.foldlM addFirstLevel s >>= fun s =>
        f.unresolved.foldlM addUnresolved s >>= fun s => s.addRoot f.root :=
    (Uniform.foldlM uniform_addNode f.nodes).andThen <| (Uniform.foldlM uniform_addEdge f.edges).andThen <|
      (Uniform.foldlM uniform_addFirstLevel f.firstLevel).andThen <|
        (Uniform.foldlM uniform_addUnresolved f.unresolved).andThen <| uniform_addRoot f.root
  exact hsteps.endsLike ⟨.start (.start config fault?), .empty, ∅⟩ ⟨.start .inMemory, .empty, ∅⟩
    ⟨⟨rfl, Store.alike_start config fault?⟩, rfl, rfl⟩

/-- What a new cache loads is what the bytes of its handle give. -/
theorem load_ofHandle {handle : ReadHandle} {bytes : List UInt8} (h : handle.content? = some bytes)
    (contents : Contents) : ((ResultCache.ofHandle handle).load contents).1 = materializeBytes contents bytes := by
  have hopen := ResultCache.open_ofHandle h
  cases hresult : materializeBytes contents bytes with
  | ok graph => exact (hopen.load_succeeds hresult).1
  | error e =>
    by_cases he : e = .lookupAborted
    · subst he
      exact (hopen.load_aborts hresult).1
    · exact (hopen.load_fails ⟨e, hresult, he⟩).1.trans hresult

/-- What is loaded after recording is decided by the state of the session and by the bytes of the store. -/
theorem load_eq (store : Store) : f.load store = f.record store >>= fun s =>
    match s.recorder.state with
    | .complete => FixtureError.ofLog (materializeBytes s.tables.contents s.recorder.store.content)
    | .recording => .error (.log .missingRoot)
    | .failed => .error (.log .recorderFailed) := by
  rw [load]
  refine bind_congr fun s => ?_
  rw [Recorder.done]
  cases s.recorder.state with
  | complete => exact congrArg FixtureError.ofLog (load_ofHandle s.recorder.store.content?_seal _)
  | recording => rfl
  | failed => rfl

/-- **The replay of a fixture is the same with a spilling store as in memory**, unless the store cannot make its
file. It needs one only if the records have more bytes than it may keep in memory. -/
theorem replay_eq_or_fault (config : StoreConfig) (fault? : Option IoFault) :
    f.replay (.start config fault?) = f.replay .inMemory ∨
      ∃ fault, fault? = some fault ∧ f.replay (.start config fault?) = .error (.log (.io fault)) ∧
        ∀ s, f.record .inMemory = .ok s → config.spillThreshold < s.recorder.store.content.length := by
  have hends := f.record_endsLike config fault?
  rw [replay, replay, load_eq, load_eq]
  revert hends
  generalize f.record (.start config fault?) = x
  generalize f.record .inMemory = y
  intro hends
  cases hends with
  | @ok s t alike =>
    -- the loaded graph depends on the state, the tables and the bytes, which are the same
    refine .inl (congrArg (Except.map Graph.report) ?_)
    show (match s.recorder.state with | .complete => _ | .recording => _ | .failed => _) = _
    rw [alike.recorder.state_eq, alike.tables_eq, alike.recorder.store.content_eq]
    rfl
  | error e => exact .inl rfl
  | @broken fault y occurs exceeds =>
    refine .inr ⟨fault, occurs, rfl, fun s hs => ?_⟩
    obtain ⟨journal, hstore, hlt⟩ := exceeds s hs
    rw [hstore]
    exact hlt

end ResultFixture

end ResolutionLog
