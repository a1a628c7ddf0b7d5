import ResolutionLog.Cache
import ResolutionLog.Proofs.Delivery
import ResolutionLog.Proofs.Description
import ResolutionLog.Proofs.Spilling

/-! # Loads of a cache

A cache lets its callers in one at a time, so whatever they do is a list of loads, in the order in which they
were let in. Each load may come with contents of its own.

As long as no load has succeeded, a load reads the store and has no influence on the next one; the first that
succeeds decides what every later load gets; and a load that is abandoned before that spoils the cache:
`ResultCache.answers_of_handle`. The three stages that a cache can be in are `ResultCache.Open`,
`ResultCache.Kept` and `ResultCache.Spoiled`, and for each of them there is one lemma on what a load does
there. -/

namespace ResolutionLog

/-- With these contents no graph is found in the bytes, and the look-ups do not give up. -/
def Contents.Fails (bytes : List UInt8) (contents : Contents) : Prop :=
  ∃ e, materializeBytes contents bytes = .error e ∧ e ≠ .lookupAborted

/-- Contents that know nothing. -/
def Sample.unknown : Contents := ⟨fun _ => .missing, fun _ => .missing⟩

/-- The sample log is refused at its first edge, unless the artifacts of this are found. -/
theorem Sample.materializeBytes_log {contents : Contents} {bytes : List UInt8} {e : LogError}
    (hs : Record.stream log = .ok bytes) (he : Draft.artifactsFor contents ⟨0⟩ = .error e) :
    materializeBytes contents bytes = .error e := by
  have hrun : ∃ d, Draft.empty.Run contents [.newNode app, .newNode compile, .newNode runtime] d ∧
      app ∈ d.nodes ∧ compile ∈ d.nodes := by
    refine ⟨_, .cons (.newNode ?_) <| .cons (.newNode ?_) <| .cons (.newNode ?_) <| .nil _, ?_, ?_⟩
    all_goals decide +kernel
  obtain ⟨d, hrun, happ, hcompile⟩ := hrun
  have hsplit : log = [.newNode app, .newNode compile, .newNode runtime] ++
      .parentChild app compile ⟨0⟩ :: log.drop 4 := rfl
  have happly : d.apply contents (.parentChild app compile ⟨0⟩) = .error e := by
    have happ' : d.nodes.require app = .ok () := NodeTable.require_eq_ok_iff.2 happ
    have hcompile' : d.nodes.require compile = .ok () := NodeTable.require_eq_ok_iff.2 hcompile
    rw [Draft.apply, Draft.addEdge, happ', hcompile', he]
    rfl
  exact materializeBytes_of_refused (hsplit ▸ named) (hsplit ▸ hs) hrun happly

namespace ResultCache

/-! ## Histories -/

/-- What some loads give, one after the other. -/
def answers : ResultCache → List Contents → List (Except LogError Graph)
  | _, [] => []
  | c, contents :: later => (c.load contents).1 :: (c.load contents).2.answers later

/-- The cache after some loads. -/
def after : ResultCache → List Contents → ResultCache
  | c, [] => c
  | c, contents :: later => (c.load contents).2.after later

/-- More loads go on from the cache that the former have left. -/
theorem after_append (c : ResultCache) (loads later : List Contents) :
    c.after (loads ++ later) = (c.after loads).after later := by
  induction loads generalizing c with
  | nil => rfl
  | cons contents loads ih => exact ih _

/-- More loads give their answers behind those of the former. -/
theorem answers_append (c : ResultCache) (loads later : List Contents) :
    c.answers (loads ++ later) = c.answers loads ++ (c.after loads).answers later := by
  induction loads generalizing c with
  | nil => rfl
  | cons contents loads ih => exact congrArg _ (ih _)

/-! ## Stages -/

/-- No load has succeeded, and the store has been read so many times. -/
structure Open (bytes : List UInt8) (reads : Nat) (c : ResultCache) : Prop where
  graph?_eq : c.graph? = none
  poisoned_eq : c.poisoned = false
  content?_eq : c.handle.content? = some bytes
  reads_eq : c.handle.reads = reads

/-- A load has succeeded, and the store has been let go. -/
structure Kept (graph : Graph) (reads : Nat) (c : ResultCache) : Prop where
  graph?_eq : c.graph? = some graph
  poisoned_eq : c.poisoned = false
  content?_eq : c.handle.content? = none
  reads_eq : c.handle.reads = reads

/-- A load was abandoned before one succeeded. -/
structure Spoiled (reads : Nat) (c : ResultCache) : Prop where
  graph?_eq : c.graph? = none
  poisoned_eq : c.poisoned = true
  reads_eq : c.handle.reads = reads

/-- A cache of an open handle is open, and what was read of the handle before counts. -/
theorem open_ofHandle {handle : ReadHandle} {bytes : List UInt8} (h : handle.content? = some bytes) :
    Open bytes handle.reads (ofHandle handle) := ⟨rfl, rfl, h, rfl⟩

variable {c : ResultCache} {bytes : List UInt8} {graph : Graph} {reads : Nat}

/-- Whatever an earlier load has read of the store, and wherever this keeps its bytes, the next load is given what
they give from the first one on. -/
theorem Open.decode_eq (h : c.Open bytes reads) (contents : Contents) :
    ∃ handle, c.decode contents = (materializeBytes contents bytes, handle) ∧
      handle.content? = some bytes ∧ handle.reads = reads + 1 := by
  refine ⟨(c.decode contents).2, Prod.ext ?_ rfl, ?_, ?_⟩
  · exact ReadHandle.read_of_steady h.content?_eq (RecordReader.steady_materialize contents)
  · rw [decode, ReadHandle.content?_read, h.content?_eq]
  · rw [decode, ReadHandle.reads_read, h.reads_eq]

/-- **A load that fails** gives its error and changes nothing but the number of reads. -/
theorem Open.load_fails (h : c.Open bytes reads) {contents : Contents} (hf : contents.Fails bytes) :
    (c.load contents).1 = materializeBytes contents bytes ∧
      (c.load contents).2.Open bytes (reads + 1) := by
  obtain ⟨e, he, hne⟩ := hf
  obtain ⟨handle, hdecode, hcontent, hreads⟩ := h.decode_eq contents
  rw [he] at hdecode
  have hload : c.load contents = (.error e, ⟨handle, none, false⟩) := by
    rw [load, h.poisoned_eq, if_neg Bool.false_ne_true, h.graph?_eq]
    simp only [hdecode]
  rw [hload, he]
  exact ⟨rfl, rfl, rfl, hcontent, hreads⟩

/-- **A load that succeeds** keeps its graph and lets the store go. -/
theorem Open.load_succeeds (h : c.Open bytes reads) {contents : Contents}
    (hg : materializeBytes contents bytes = .ok graph) :
    (c.load contents).1 = .ok graph ∧ (c.load contents).2.Kept graph (reads + 1) := by
  obtain ⟨handle, hdecode, -, hreads⟩ := h.decode_eq contents
  rw [hg] at hdecode
  have hload : c.load contents = (.ok graph, ⟨handle.close, some graph, false⟩) := by
    rw [load, h.poisoned_eq, if_neg Bool.false_ne_true, h.graph?_eq]
    simp only [hdecode]
  rw [hload]
  exact ⟨rfl, rfl, rfl, ReadHandle.content?_close handle, hreads⟩

/-- **A load that is abandoned** spoils the cache. -/
theorem Open.load_aborts (h : c.Open bytes reads) {contents : Contents}
    (ha : materializeBytes contents bytes = .error .lookupAborted) :
    (c.load contents).1 = .error .lookupAborted ∧ (c.load contents).2.Spoiled (reads + 1) := by
  obtain ⟨handle, hdecode, -, hreads⟩ := h.decode_eq contents
  rw [ha] at hdecode
  have hload : c.load contents = (.error .lookupAborted, ⟨handle, none, true⟩) := by
    rw [load, h.poisoned_eq, if_neg Bool.false_ne_true, h.graph?_eq]
    simp only [hdecode]
  rw [hload]
  exact ⟨rfl, rfl, rfl, hreads⟩

/-! ## Runs of loads -/

/-- **Loads that fail** give their errors, and the cache stays open. -/
theorem Open.run (h : c.Open bytes reads) {loads : List Contents}
    (hfails : ∀ contents ∈ loads, contents.Fails bytes) :
    c.answers loads = loads.map (materializeBytes · bytes) ∧
      (c.after loads).Open bytes (reads + loads.length) := by
  induction loads generalizing c reads with
  | nil => exact ⟨rfl, h⟩
  | cons contents loads ih =>
    obtain ⟨hanswer, hopen⟩ := h.load_fails (hfails contents List.mem_cons_self)
    obtain ⟨hanswers, hafter⟩ := ih hopen fun other hm => hfails other (List.mem_cons_of_mem _ hm)
    rw [Nat.add_right_comm] at hafter
    rw [answers, hanswer, hanswers]
    exact ⟨rfl, hafter⟩

/-- **A kept graph** is what all loads give, and they change nothing. -/
theorem Kept.run (h : c.Kept graph reads) (loads : List Contents) :
    c.answers loads = loads.map (fun _ => .ok graph) ∧ c.after loads = c := by
  induction loads with
  | nil => exact ⟨rfl, rfl⟩
  | cons contents loads ih =>
    rw [answers, after, load_of_graph h.poisoned_eq h.graph?_eq, ih.1, ih.2]
    exact ⟨rfl, rfl⟩

/-- **A spoiled cache** gives nothing any more, and stays as it is. -/
theorem Spoiled.run (h : c.Spoiled reads) (loads : List Contents) :
    c.answers loads = loads.map (fun _ => .error .cachePoisoned) ∧ c.after loads = c := by
  induction loads with
  | nil => exact ⟨rfl, rfl⟩
  | cons contents loads ih =>
    rw [answers, after, load_of_poisoned h.poisoned_eq, ih.1, ih.2]
    exact ⟨rfl, rfl⟩

/-- **What the loads of a store give.** Let a cache be made of an open handle over some bytes.
* As long as all loads fail, each of them gives the error that the bytes and its contents give. Nothing is
  loaded, and the handle is open and has been read once for each load.
* The first load that finds a graph gives it, and so do all later ones, whatever their contents. The handle
  has been read for the loads up to this one only, and is closed.
* If a load is abandoned before that, all later ones are turned away, and nothing is ever loaded. -/
theorem answers_of_handle {handle : ReadHandle} {bytes : List UInt8}
    (hcontent : handle.content? = some bytes) {failing : List Contents}
    (hfails : ∀ contents ∈ failing, contents.Fails bytes) :
    ((ofHandle handle).answers failing = failing.map (materializeBytes · bytes) ∧
      ((ofHandle handle).after failing).isLoaded = false ∧
      ((ofHandle handle).after failing).handle.isClosed = false ∧
      ((ofHandle handle).after failing).handle.reads = handle.reads + failing.length) ∧
    (∀ first graph later, materializeBytes first bytes = .ok graph →
      (ofHandle handle).answers (failing ++ first :: later) =
        failing.map (materializeBytes · bytes) ++ .ok graph :: later.map (fun _ => .ok graph) ∧
      ((ofHandle handle).after (failing ++ first :: later)).isLoaded = true ∧
      ((ofHandle handle).after (failing ++ first :: later)).handle.isClosed = true ∧
      ((ofHandle handle).after (failing ++ first :: later)).handle.reads =
        handle.reads + failing.length + 1) ∧
    ∀ abandoned later, materializeBytes abandoned bytes = .error .lookupAborted →
      (ofHandle handle).answers (failing ++ abandoned :: later) =
        failing.map (materializeBytes · bytes) ++
          .error .lookupAborted :: later.map (fun _ => .error .cachePoisoned) ∧
      ((ofHandle handle).after (failing ++ abandoned :: later)).isLoaded = false := by
  obtain ⟨hanswers, hopen⟩ := (open_ofHandle hcontent).run hfails
  refine ⟨⟨hanswers, ?_, ?_, hopen.reads_eq⟩, fun first graph later hg => ?_, fun abandoned later ha => ?_⟩
  · rw [isLoaded, hopen.graph?_eq]
    rfl
  · rw [ReadHandle.isClosed_eq, hopen.content?_eq]
    rfl
  · -- the failing loads have left the cache open for this one, and it serves all that follow
    obtain ⟨hanswer, hkept⟩ := hopen.load_succeeds hg
    obtain ⟨hlater, hsame⟩ := hkept.run later
    rw [answers_append, hanswers, answers, hanswer, hlater, after_append, after, hsame, isLoaded,
      hkept.graph?_eq, ReadHandle.isClosed_eq, hkept.content?_eq]
    exact ⟨rfl, rfl, rfl, hkept.reads_eq⟩
  · obtain ⟨hanswer, hspoiled⟩ := hopen.load_aborts ha
    obtain ⟨hlater, hsame⟩ := hspoiled.run later
    rw [answers_append, hanswers, answers, hanswer, hlater, after_append, after, hsame, isLoaded,
      hspoiled.graph?_eq]
    exact ⟨rfl, rfl⟩

/-- A load that finds nothing is followed by one that finds the graph, and this outlasts a load that would be
abandoned. In the other order the abandoned load spoils the cache. -/
theorem answers_of_handle_sample :
    ∃ bytes graph, (ReadHandle.ofBytes bytes).content? = some bytes ∧
      Sample.unknown.Fails bytes ∧
      (ofHandle (.ofBytes bytes)).answers [Sample.unknown, Sample.lookups, .aborting] =
        [.error (.missingArtifacts ⟨0⟩), .ok graph, .ok graph] ∧
      ((ofHandle (.ofBytes bytes)).after
        [Sample.unknown, Sample.lookups, .aborting]).handle.reads = 2 ∧
      (ofHandle (.ofBytes bytes)).answers [Sample.unknown, .aborting, Sample.lookups] =
        [.error (.missingArtifacts ⟨0⟩), .error .lookupAborted, .error .cachePoisoned] := by
  obtain ⟨bytes, graph, hs, hg, -⟩ := Sample.exists_graph
  have hmissing : materializeBytes Sample.unknown bytes = .error (.missingArtifacts ⟨0⟩) :=
    Sample.materializeBytes_log hs rfl
  have haborts : materializeBytes .aborting bytes = .error .lookupAborted :=
    Sample.materializeBytes_log hs rfl
  have hfails : Sample.unknown.Fails bytes := ⟨_, hmissing, nofun⟩
  have hall : ∀ contents ∈ [Sample.unknown], contents.Fails bytes := by
    intro contents hm
    rw [List.mem_singleton.1 hm]
    exact hfails
  obtain ⟨-, hfound, habandoned⟩ := answers_of_handle (ReadHandle.content?_ofBytes bytes) hall
  obtain ⟨hanswers, -, -, hreads⟩ := hfound Sample.lookups graph [.aborting] hg
  have hturned := (habandoned .aborting [Sample.lookups] haborts).1
  rw [List.map_singleton, hmissing] at hanswers hturned
  exact ⟨bytes, graph, rfl, hfails, hanswers, hreads, hturned⟩

end ResultCache

end ResolutionLog
