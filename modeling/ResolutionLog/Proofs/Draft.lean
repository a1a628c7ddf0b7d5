import ResolutionLog.Proofs.NodeTable

/-! # Runs of drafts

What reading a stream does, told without errors: `Draft.Step` has one rule for each kind of record
before the root, with what the record demands of the draft, and `Draft.Run` chains steps. A draft
takes a record exactly when there is a step for it (`Draft.apply_eq_more_iff`), so whatever holds of the
empty draft and survives a step holds after every run (`Draft.Run.induct`).

Main statements: a graph that comes out of any source was drafted by a run over records that the source
gives, up to its first root (`exists_run_of_materializeFrom`); over the stream of some records these
are the records before the first root among them (`exists_run_of_stream`), and such a run leads to a graph
if it finishes (`materializeBytes_of_run`). -/

namespace ResolutionLog

/-- The selector that a result names for a child: the one that the contents know, or else the narrowest
one for its component. -/
def Contents.requestOf (contents : Contents) (child : NodeKey) : Selector :=
  match contents.requested child with
  | .found selector => selector
  | _ => .exact child.component

namespace Draft

variable {contents : Contents}

/-! ## Steps -/

/-- What requested a child is known unless its look-up gives up. -/
theorem requestFor_eq_ok_iff {child : NodeKey} {selector : Selector} :
    requestFor contents child = .ok selector ↔
      contents.requested child ≠ .aborted ∧ selector = contents.requestOf child := by
  unfold requestFor Contents.requestOf
  cases contents.requested child <;> simp [eq_comm]

/-- The artifacts of an edge are those that are found behind its handle. -/
theorem artifactsFor_eq_ok_iff {handle : ArtifactHandle} {set : ArtifactSet} :
    artifactsFor contents handle = .ok set ↔ contents.artifacts handle = .found set := by
  unfold artifactsFor
  cases contents.artifacts handle <;> simp

/-- What a record before the root makes of a draft, by the kind of the record. -/
inductive Step (contents : Contents) (d : Draft) : Record → Draft → Prop where
  /-- A new node needs a new key. -/
  | newNode {key : NodeKey} (fresh : key ∉ d.nodes) :
    Step contents d (.newNode key) { d with nodes := d.nodes.insert key (.isolated key) }
  /-- An edge needs both ends, an artifact set behind its handle, and an answer about its child. -/
  | parentChild {parent child : NodeKey} {handle : ArtifactHandle} {set : ArtifactSet}
      (parent_mem : parent ∈ d.nodes) (child_mem : child ∈ d.nodes)
      (found : contents.artifacts handle = .found set)
      (answered : contents.requested child ≠ .aborted) :
    Step contents d (.parentChild parent child handle)
      { d with nodes := connect d.nodes parent child (contents.requestOf child) set }
  /-- A first-level dependency needs its node and a selector that requested it. -/
  | firstLevel {key : NodeKey} {selector : Selector} (mem : key ∈ d.nodes)
      (found : contents.requested key = .found selector) :
    Step contents d (.firstLevel key) { d with firstLevel := d.firstLevel.insert selector key }
  /-- A failed request needs the node that made it. -/
  | unresolved {parent : NodeKey} {requested : Selector} {reason : String}
      (mem : parent ∈ d.nodes) :
    Step contents d (.unresolved parent requested reason)
      { d with nodes := d.nodes.modify parent (·.addFailure requested reason) }

/-- **A draft takes a record** and goes on exactly by a step. -/
theorem apply_eq_more_iff {d d' : Draft} {record : Record} :
    d.apply contents record = .ok (.more d') ↔ d.Step contents record d' := by
  constructor
  · intro h
    -- what the checks of a record have let through is what its step asks for
    cases record with
    | newNode key =>
      simp only [apply, addNode, bind_eq_ok_iff, pure, Except.pure, Except.ok.injEq,
        Progress.more.injEq] at h
      obtain ⟨d₁, h, rfl⟩ := h
      split at h
      · cases h
      · next fresh =>
        cases h
        exact .newNode fresh
    | parentChild parent child handle =>
      simp only [apply, addEdge, bind_eq_ok_iff, pure, Except.pure, Except.ok.injEq,
        Progress.more.injEq, NodeTable.require_eq_ok_iff, artifactsFor_eq_ok_iff,
        requestFor_eq_ok_iff] at h
      obtain ⟨d₁, ⟨-, hp, -, hc, set, ha, selector, ⟨hr, rfl⟩, rfl⟩, rfl⟩ := h
      exact .parentChild hp hc ha hr
    | firstLevel key =>
      simp only [apply, addFirstLevel, bind_eq_ok_iff, pure, Except.pure, Except.ok.injEq,
        Progress.more.injEq, NodeTable.require_eq_ok_iff] at h
      obtain ⟨d₁, ⟨-, hk, h⟩, rfl⟩ := h
      split at h
      · next selector hs =>
        cases h
        exact .firstLevel hk hs
      · cases h
      · cases h
    | unresolved parent requested reason =>
      simp only [apply, addUnresolved, bind_eq_ok_iff, pure, Except.pure, Except.ok.injEq,
        Progress.more.injEq, NodeTable.require_eq_ok_iff] at h
      obtain ⟨d₁, ⟨-, hp, rfl⟩, rfl⟩ := h
      exact .unresolved hp
    | root key => simp [apply, bind_eq_ok_iff, pure, Except.pure] at h
  · intro h
    cases h with
    | newNode fresh => simp [apply, addNode, fresh, bind, Except.bind, pure, Except.pure]
    | parentChild hp hc ha hr =>
      simp [apply, addEdge, NodeTable.require, hp, hc, artifactsFor_eq_ok_iff.2 ha,
        requestFor_eq_ok_iff.2 ⟨hr, rfl⟩, bind, Except.bind, pure, Except.pure]
    | firstLevel hk hs =>
      simp [apply, addFirstLevel, NodeTable.require, hk, hs, bind, Except.bind, pure, Except.pure]
    | unresolved hp =>
      simp [apply, addUnresolved, NodeTable.require, hp, bind, Except.bind, pure, Except.pure]

/-- Only a root record with a registered key ends the reading. -/
theorem apply_eq_root_iff {d : Draft} {record : Record} {key : NodeKey} :
    d.apply contents record = .ok (.root key) ↔ record = .root key ∧ key ∈ d.nodes := by
  cases record with
  | root other =>
    simp only [apply, bind_eq_ok_iff, NodeTable.require_eq_ok_iff, pure, Except.pure,
      Except.ok.injEq, Progress.root.injEq, Record.root.injEq]
    constructor
    · rintro ⟨-, hk, rfl⟩
      exact ⟨rfl, hk⟩
    · rintro ⟨rfl, hk⟩
      exact ⟨(), hk, rfl⟩
  | newNode | parentChild | firstLevel | unresolved =>
    simp [apply, bind_eq_ok_iff, pure, Except.pure]

/-! ## Runs -/

/-- Some records, taken one after the other, lead from one draft to another. -/
inductive Run (contents : Contents) : Draft → List Record → Draft → Prop where
  | nil (d : Draft) : Run contents d [] d
  | cons {d d₁ d₂ : Draft} {record : Record} {records : List Record}
      (head : d.Step contents record d₁) (tail : Run contents d₁ records d₂) :
    Run contents d (record :: records) d₂

/-- **Induction over a run**: what every step carries on from the records before it to the records
with it holds of all records of a run when it holds of those before the run. -/
theorem Run.induct {P : List Record → Draft → Prop}
    (step : ∀ {before : List Record} {record : Record} {d d' : Draft}, P before d →
      d.Step contents record d' → P (before ++ [record]) d')
    {before records : List Record} {d d' : Draft} (start : P before d)
    (h : Run contents d records d') : P (before ++ records) d' := by
  induction h generalizing before with
  | nil d => rwa [List.append_nil]
  | cons head tail ih =>
    rw [List.append_cons]
    exact ih (step start head)

/-- A run over records in two parts stops between them. -/
theorem Run.of_append {records others : List Record} {d d' : Draft}
    (h : Run contents d (records ++ others) d') :
    ∃ d₁, Run contents d records d₁ ∧ Run contents d₁ others d' := by
  induction records generalizing d with
  | nil => exact ⟨d, .nil d, h⟩
  | cons record records ih =>
    cases h with
    | cons head tail =>
      obtain ⟨d₁, hrecords, hothers⟩ := ih tail
      exact ⟨d₁, .cons head hrecords, hothers⟩

/-- A run over some records and a last one is a run and a step. -/
theorem run_concat_iff {records : List Record} {record : Record} {d d' : Draft} :
    Run contents d (records ++ [record]) d' ↔
      ∃ d₁, Run contents d records d₁ ∧ d₁.Step contents record d' := by
  constructor
  · intro h
    obtain ⟨d₁, hrecords, hlast⟩ := h.of_append
    cases hlast with
    | cons head tail =>
      cases tail
      exact ⟨d₁, hrecords, head⟩
  · rintro ⟨d₁, hrecords, hlast⟩
    induction hrecords with
    | nil d => exact .cons hlast (.nil d')
    | cons head tail ih => exact .cons head (ih hlast)

/-- No root is taken on the way. -/
theorem Run.root_not_mem {records : List Record} {d d' : Draft} (h : Run contents d records d')
    (key : NodeKey) : .root key ∉ records := by
  induction h with
  | nil d => exact List.not_mem_nil
  | cons head tail ih =>
    rw [List.mem_cons, not_or]
    refine ⟨?_, ih⟩
    rintro rfl
    cases head

end Draft

/-! ## Reading as a run -/

variable {contents : Contents}

/-- **A graph comes from a run**: the source gave some records and then a root, and the graph is what the
draft after these records finishes to. -/
theorem exists_run_of_materializeFrom {d : Draft} {r : RecordReader} {g : Graph}
    (h : (materializeFrom contents d r).1 = .ok g) :
    ∃ records root s d', r.Reads (records ++ [.root root]) s ∧ d.Run contents records d' ∧
      root ∈ d'.nodes ∧ d'.finish root = .ok g := by
  fun_induction materializeFrom contents d r with
  | case1 => cases h
  | case2 => cases h
  | case3 => cases h
  | case4 d r record s hnext root hroot =>
    obtain ⟨rfl, hk⟩ := Draft.apply_eq_root_iff.1 hroot
    exact ⟨[], root, s, d, .cons hnext (.nil s), .nil d, hk, h⟩
  | case5 d r record s hnext d₁ hmore ih =>
    obtain ⟨records, root, t, d₂, hreads, hrun, hk, hg⟩ := ih h
    exact ⟨record :: records, root, t, d₂, .cons hnext hreads,
      .cons (Draft.apply_eq_more_iff.1 hmore) hrun, hk, hg⟩

/-- What becomes of a draft is decided by the next call of the reader, and then by the record. -/
theorem materializeFrom_eq (d : Draft) (r : RecordReader) :
    materializeFrom contents d r =
      match RecordReader.next r with
      | .error e r => (.error e, r)
      | .ok none r => (.error (.rootNotFound r.records), r)
      | .ok (some record) r =>
        match d.apply contents record with
        | .error e => (.error e, r)
        | .ok (.root key) => (d.finish key, r)
        | .ok (.more d) => materializeFrom contents d r := by
  rw [materializeFrom]
  split
  · next e s hnext => rw [hnext]
  · next s hnext => rw [hnext]
  · next record s hnext =>
    rewrite [hnext]
    rfl

/-- **A run is passed over**: the draft before it and the reader in front of its records lead to the same
as the draft and the reader after it. -/
theorem materializeFrom_run {d d' : Draft} {r s : RecordReader} {records : List Record}
    (hreads : r.Reads records s) (hrun : d.Run contents records d') :
    materializeFrom contents d r = materializeFrom contents d' s := by
  induction hrun generalizing r with
  | nil d =>
    cases hreads
    rfl
  | cons hstep hrun ih =>
    -- the reader gives the record of the step, and the rest of the run starts behind it
    cases hreads with
    | cons head tail =>
      rw [materializeFrom_eq, head]
      simp only [Draft.apply_eq_more_iff.2 hstep]
      exact ih tail

/-- What is read in a run is materialized to what the draft after the run finishes to. -/
theorem materializeFrom_of_run {d d' : Draft} {r s : RecordReader} {records : List Record}
    {root : NodeKey} (hreads : r.Reads (records ++ [.root root]) s) (hrun : d.Run contents records d')
    (hk : root ∈ d'.nodes) : materializeFrom contents d r = (d'.finish root, s) := by
  obtain ⟨t, hbefore, hroot⟩ := hreads.of_append
  cases hroot with
  | cons head tail =>
    cases tail
    rw [materializeFrom_run hbefore hrun, materializeFrom_eq, head]
    simp only [Draft.apply_eq_root_iff.2 ⟨rfl, hk⟩]

/-- **A graph from a stream** comes from a run over the records before the first root. -/
theorem exists_run_of_stream {records : List Record} {bytes : List UInt8} {g : Graph}
    (hs : Record.stream records = .ok bytes) (h : materializeBytes contents bytes = .ok g) :
    ∃ before root after d, records = before ++ .root root :: after ∧
      Draft.empty.Run contents before d ∧ root ∈ d.nodes ∧ d.finish root = .ok g := by
  obtain ⟨before, root, s, d, hreads, hrun, hk, hg⟩ := exists_run_of_materializeFrom h
  obtain ⟨after, hafter⟩ := hreads.isPrefix_of_stream hs (RecordReader.plain_start _) rfl
  refine ⟨before, root, after, d, ?_, hrun, hk, hg⟩
  rw [← hafter, List.append_assoc, List.singleton_append]

/-- What a stream of some records leads to is decided by the draft after a run over the first of them and by
a reader in front of the others. -/
theorem exists_materializeBytes_eq {records others : List Record} {bytes : List UInt8} {d : Draft}
    (hn : ∀ record ∈ records ++ others, record.Named)
    (hs : Record.stream (records ++ others) = .ok bytes) (hrun : Draft.empty.Run contents records d) :
    ∃ r s, materializeBytes contents bytes = (materializeFrom contents d r).1 ∧ r.Reads others s ∧
      RecordReader.next s = .ok none s ∧ s.records = (records ++ others).length := by
  obtain ⟨s, hall, hplain, hend, hcount, -⟩ := RecordReader.reads_stream hn hs
    (RecordReader.plain_start bytes) (List.append_nil bytes).symm
  obtain ⟨r, hrecords, hothers⟩ := hall.of_append
  refine ⟨r, s, ?_, hothers, RecordReader.next_of_no_data hplain hend, ?_⟩
  · rw [materializeBytes, materialize, materializeFrom_run hrecords hrun]
  · exact hcount.trans (Nat.zero_add _)

/-- **A run gives a graph** from each stream that starts with its records and a root, if they can be read
back. -/
theorem materializeBytes_of_run {before after : List Record} {root : NodeKey} {bytes : List UInt8}
    {d : Draft} (hn : ∀ record ∈ before ++ .root root :: after, record.Named)
    (hs : Record.stream (before ++ .root root :: after) = .ok bytes)
    (hrun : Draft.empty.Run contents before d) (hk : root ∈ d.nodes) :
    materializeBytes contents bytes = d.finish root := by
  obtain ⟨r, _, heq, hreads, -⟩ := exists_materializeBytes_eq hn hs hrun
  cases hreads with
  | cons head tail =>
    rw [heq, materializeFrom_eq, head]
    simp only [Draft.apply_eq_root_iff.2 ⟨rfl, hk⟩]

/-- **A record that is refused after a run** gives its error, whatever comes after it. -/
theorem materializeBytes_of_refused {before after : List Record} {record : Record}
    {bytes : List UInt8} {d : Draft} {e : LogError}
    (hn : ∀ other ∈ before ++ record :: after, other.Named)
    (hs : Record.stream (before ++ record :: after) = .ok bytes)
    (hrun : Draft.empty.Run contents before d) (he : d.apply contents record = .error e) :
    materializeBytes contents bytes = .error e := by
  obtain ⟨r, _, heq, hreads, -⟩ := exists_materializeBytes_eq hn hs hrun
  cases hreads with
  | cons head tail =>
    rw [heq, materializeFrom_eq, head]
    simp only [he]

/-- **A run over a whole stream** finds no root in it. -/
theorem materializeBytes_of_no_root {records : List Record} {bytes : List UInt8} {d : Draft}
    (hn : ∀ record ∈ records, record.Named) (hs : Record.stream records = .ok bytes)
    (hrun : Draft.empty.Run contents records d) :
    materializeBytes contents bytes = .error (.rootNotFound records.length) := by
  rw [← List.append_nil records] at hn hs
  obtain ⟨r, s, heq, hreads, hend, hcount⟩ := exists_materializeBytes_eq hn hs hrun
  cases hreads
  rw [heq, materializeFrom_eq, hend, ← List.append_nil records, ← hcount]

end ResolutionLog
