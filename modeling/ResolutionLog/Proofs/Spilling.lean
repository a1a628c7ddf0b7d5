import ResolutionLog.Proofs.Requests
import ResolutionLog.Store

/-! # Where a store keeps its bytes

A spilling store moves from memory to a file in the middle of its life, at a point that depends on what is
written, and moving may fail. None of this shows in what is read from it: `Store.read_seal_after`.

All media that take everything are treated at once (`Store.TakesAll`). What a handle gives depends only on
whether it has been closed, and not on how it was read before (`ReadHandle.Used.read_eq`). When a store is
in its file is told by its threshold as long as nothing fails (`SpillStore.Counted`). -/

namespace ResolutionLog

/-! ## What is written -/

namespace Store

/-- The store after some actions, whatever their results. -/
def after (s : Store) (actions : List WriteAction) : Store :=
  actions.foldl (fun s a => (s.write a).2) s

/-- More actions go on from the store that the former have left. -/
theorem after_append (s : Store) (actions later : List WriteAction) :
    s.after (actions ++ later) = (s.after actions).after later := List.foldl_append

/-- A store that loses nothing of what its actions write. -/
inductive TakesAll : Store → Prop where
  | memory (journal : Journal) : TakesAll (.memory journal)
  | spill (store : SpillStore) : TakesAll (.spill store)

/-- The bytes of an action are appended, also if it fails or the store fails to move. -/
theorem TakesAll.write {s : Store} (h : s.TakesAll) (a : WriteAction) :
    (s.write a).2.TakesAll ∧ (s.write a).2.content = s.content ++ a.bytes := by
  cases h with
  | memory journal => exact ⟨.memory _, journal.bytes_append a.bytes⟩
  | spill store => exact ⟨.spill _, store.content_write a⟩

/-- **All bytes are kept**, in the order in which they were written. -/
theorem TakesAll.content_after {s : Store} (h : s.TakesAll) (actions : List WriteAction) :
    (s.after actions).content = s.content ++ actions.flatMap WriteAction.bytes := by
  induction actions generalizing s with
  | nil => exact (List.append_nil _).symm
  | cons a actions ih =>
    obtain ⟨htakes, hcontent⟩ := h.write a
    show ((s.write a).2.after actions).content = _
    rw [ih htakes, hcontent, List.flatMap_cons, List.append_assoc]

end Store

/-! ## What is read -/

namespace ReadHandle

/-- A handle that has been read in any ways and possibly been closed, in any order. -/
inductive Used (h : ReadHandle) : Bool → ReadHandle → Prop where
  | fresh : Used h false h
  | read {closed : Bool} {h' : ReadHandle} {α : Type}
      (action : ByteSource → Except LogError α × ByteSource) (used : Used h closed h') :
      Used h closed (h'.read action).2
  | close {closed : Bool} {h' : ReadHandle} (used : Used h closed h') : Used h true h'.close

/-- A handle gives the same source to every reading until it is closed. -/
theorem Used.source?_eq {h h' : ReadHandle} {closed : Bool} (hu : h.Used closed h') :
    h'.source? = if closed then none else h.source? := by
  induction hu with
  | fresh => rfl
  | read action used ih => rw [source?_read, ih]
  | close used ih => rfl

/-- **A reading gives what the bytes give**, from the first one on, or is refused because the handle has been
closed. Earlier readings do not matter. -/
theorem Used.read_eq {h h' : ReadHandle} {closed : Bool} {source : ByteSource} (hu : h.Used closed h')
    (hs : h.source? = some source) {α : Type} (action : ByteSource → Except LogError α × ByteSource) :
    (h'.read action).1 = if closed then .error .storeClosed else (action source).1 := by
  rw [read_fst, hu.source?_eq]
  cases closed with
  | false => rw [if_neg Bool.false_ne_true, if_neg Bool.false_ne_true, hs]
  | true => rw [if_pos rfl, if_pos rfl]

/-- **A steady reading does not show where the bytes are**: it gives what they give as they are. -/
theorem read_of_steady {α : Type} {h : ReadHandle} {bytes : List UInt8} (hc : h.content? = some bytes)
    {action : ByteSource → Except LogError α × ByteSource} (ha : ByteSource.Steady action) :
    (h.read action).1 = (action (.plain bytes)).1 := by
  rw [read_fst]
  rcases source?_of_content hc with hs | hs
  · rw [hs]
  · rw [hs]
    exact ha.buffered_eq bytes

end ReadHandle

/-! ## Where it is kept -/

namespace SpillStore

/-- The store after some actions, whatever their results. -/
def after (s : SpillStore) (actions : List WriteAction) : SpillStore :=
  actions.foldl (fun s a => (s.write a).2) s

/-- A store that is in a file is in it for ever. -/
theorem spilled_after {s : SpillStore} (h : s.spilled = true) (actions : List WriteAction) :
    (s.after actions).spilled = true := by
  induction actions generalizing s with
  | nil => exact h
  | cons a actions ih => exact ih (spilled_write h a)

/-- A write leaves a spilling store exposed to the same fault as before, and ends as its action does, unless this
fault occurs because the store has too many bytes for memory. -/
theorem write_fault (s : SpillStore) (a : WriteAction) :
    (s.write a).2.fault? = s.fault? ∧ (s.write a).2.threshold = s.threshold ∧
      (s.write a).2.written ≤ s.written + a.bytes.length ∧
      ((s.write a).1 = a.outcome ∨ ∃ fault, s.fault? = some fault ∧ (s.write a).1 = .error (.io fault) ∧
        s.threshold < s.written + a.bytes.length) := by
  unfold write
  simp only
  split
  · next h => exact ⟨rfl, rfl, Nat.le_add_right _ _, .inl h.symm⟩
  · next h =>
    split
    · exact ⟨rfl, rfl, Nat.le_refl _, .inl h.symm⟩
    · next hmove =>
      unfold spill
      split
      · exact ⟨rfl, rfl, Nat.le_refl _, .inl h.symm⟩
      · exact ⟨rfl, rfl, Nat.le_refl _, .inl h.symm⟩
      · -- only a store that is still in memory can meet its fault
        next fault _ hfault =>
        exact ⟨rfl, rfl, Nat.le_refl _, .inr ⟨fault, hfault, rfl, Nat.lt_of_not_le (not_or.1 hmove).2⟩⟩

/-- A store that can move, has counted all that was written, and has moved if this is above its threshold. -/
structure Counted (threshold total : Nat) (s : SpillStore) : Prop where
  fault?_eq : s.fault? = none
  threshold_eq : s.threshold = threshold
  written_eq : s.written = total
  spilled_iff : s.spilled = true ↔ threshold < total

/-- A spilling store starts with a count of nothing, in memory. -/
theorem counted_start (config : StoreConfig) : (start config none).Counted config.spillThreshold 0 := by
  refine ⟨rfl, rfl, rfl, ?_⟩
  constructor
  · intro h
    cases h
  · intro h
    omega

/-- A store that can move to a file does, and nothing else about it changes. -/
theorem spill_of_no_fault {s : SpillStore} (h : s.fault? = none) :
    ∃ medium, s.spill.2 = { s with medium } ∧ medium.inFile = true := by
  obtain ⟨threshold, fault?, medium, written⟩ := s
  obtain rfl : fault? = none := h
  cases medium with
  | memory journal => exact ⟨_, rfl, rfl⟩
  | file writer => exact ⟨.file writer, rfl, rfl⟩

/-- **An action that succeeds** is counted, and takes the store to a file just if it takes the count above
the threshold. -/
theorem Counted.write {s : SpillStore} {threshold total : Nat} (h : s.Counted threshold total)
    {a : WriteAction} (ha : a.outcome = .ok ()) :
    (s.write a).2.Counted threshold (total + a.bytes.length) := by
  have hrun : (s.medium.run a).inFile = s.spilled := SpillMedium.inFile_run s.medium a
  have hwritten : s.written + a.bytes.length = total + a.bytes.length := by rw [h.written_eq]
  unfold SpillStore.write
  simp only [ha]
  split
  · next hstays =>
    -- it is in the file already, or the count has not come above the threshold
    refine ⟨h.fault?_eq, h.threshold_eq, hwritten, ?_⟩
    have hold := h.spilled_iff
    rw [spilled, hrun] at hstays ⊢
    rw [hwritten, h.threshold_eq] at hstays
    constructor
    · intro hs
      have hlt := hold.1 hs
      omega
    · intro hlt
      exact hstays.resolve_right (Nat.not_le.2 hlt)
  · next hmoves =>
    -- the count has come above the threshold with this action
    obtain ⟨medium, hspill, hfile⟩ := spill_of_no_fault (s := { s with
      medium := s.medium.run a, written := s.written + a.bytes.length }) h.fault?_eq
    rw [hspill]
    refine ⟨h.fault?_eq, h.threshold_eq, hwritten, ?_⟩
    rw [hwritten, h.threshold_eq] at hmoves
    constructor
    · intro _
      omega
    · exact fun _ => hfile

/-- Actions that all succeed. -/
theorem Counted.after {s : SpillStore} {threshold total : Nat} (h : s.Counted threshold total)
    {actions : List WriteAction} (ha : ∀ a ∈ actions, a.outcome = .ok ()) :
    (s.after actions).Counted threshold (total + (actions.flatMap WriteAction.bytes).length) := by
  induction actions generalizing s total with
  | nil => exact h
  | cons a actions ih =>
    have hwrite := h.write (ha a List.mem_cons_self)
    have hafter := ih hwrite fun other hm => ha other (List.mem_cons_of_mem _ hm)
    rw [List.flatMap_cons, List.length_append, ← Nat.add_assoc]
    exact hafter

end SpillStore

/-- Two bytes, and a flush. -/
def Sample.first : WriteAction := ⟨[.part [1, 2], .flush], .ok ()⟩

/-- Two more bytes, in two parts. -/
def Sample.second : WriteAction := ⟨[.part [3], .part [4]], .ok ()⟩

/-- A reading of four bytes. -/
def Sample.four (source : ByteSource) : Except LogError (List UInt8) × ByteSource :=
  ((source.readExact 4).1.mapError .io, (source.readExact 4).2)

/-- It gives the same however they are delivered. -/
theorem Sample.steady_four : ByteSource.Steady Sample.four := fun s h hf hd =>
  congrArg (Except.mapError LogError.io) (ByteSource.steady_readExact 4 s h hf hd)

namespace Store

/-- A spilling store stays one. -/
theorem after_spill (s : SpillStore) (actions : List WriteAction) :
    (Store.spill s).after actions = .spill (s.after actions) := by
  induction actions generalizing s with
  | nil => rfl
  | cons a actions ih => exact ih (s.write a).2

/-- **It does not show where a store keeps its bytes.** Let the same actions, which may fail, be run on a
spilling store with any threshold, and on a store in memory. Whether or not a file can be made, both have the
bytes of all actions, in order, and each reading of either handle is of these bytes from the first one on, however
it was read before, until the handle is closed; then it is refused. Only a store that is in a file is read through
a buffer, and a reading whose result does not depend on how bytes are delivered gives what they give as they are.
A store that is in a file stays there, and if a file can be made and all actions succeed, it is in the file just if
more than the threshold has been written. -/
theorem read_seal_after (config : StoreConfig) (fault? : Option IoFault) (actions : List WriteAction) :
    (∀ store, store = start config fault? ∨ store = inMemory →
      (store.after actions).seal.content? = some (actions.flatMap WriteAction.bytes) ∧
      ∀ {closed handle}, (store.after actions).seal.Used closed handle →
        ∀ {α : Type} (action : ByteSource → Except LogError α × ByteSource),
          ((handle.read action).1 = if closed then .error .storeClosed
            else (action (if (store.after actions).spilled? = some true
              then .buffered (actions.flatMap WriteAction.bytes)
              else .plain (actions.flatMap WriteAction.bytes))).1) ∧
          (ByteSource.Steady action → (handle.read action).1 = if closed then .error .storeClosed
            else (action (.plain (actions.flatMap WriteAction.bytes))).1)) ∧
    (∀ later, ((start config fault?).after actions).spilled? = some true →
      ((start config fault?).after (actions ++ later)).spilled? = some true) ∧
    (fault? = none → (∀ a ∈ actions, a.outcome = .ok ()) →
      ((start config fault?).after actions).spilled? =
        some (decide (config.spillThreshold < (actions.flatMap WriteAction.bytes).length))) := by
  refine ⟨fun store hstore => ?_, fun later hs => ?_, fun hfault ha => ?_⟩
  -- both stores start empty and take everything
  · have hempty : store.TakesAll ∧ store.content = [] := by
      rcases hstore with rfl | rfl
      · exact ⟨.spill _, rfl⟩
      · exact ⟨.memory _, rfl⟩
    have hcontent : (store.after actions).content = actions.flatMap WriteAction.bytes := by
      rw [hempty.1.content_after, hempty.2, List.nil_append]
    have hsource := source?_seal (store.after actions)
    rw [hcontent] at hsource
    refine ⟨by rw [content?_seal, hcontent], fun hu _ action => ⟨hu.read_eq hsource action, fun ha => ?_⟩⟩
    rw [hu.read_eq hsource action]
    split
    · rfl
    · split
      · exact ha.buffered_eq _
      · rfl
  · rw [start, after_spill, spilled?, Option.some.injEq] at hs
    rw [after_append, start, after_spill, after_spill, spilled?, SpillStore.spilled_after hs]
  · have hcounted := (SpillStore.counted_start config).after ha
    rw [Nat.zero_add] at hcounted
    subst hfault
    rw [start, after_spill, spilled?, Option.some.injEq, Bool.eq_iff_iff, decide_eq_true_iff]
    exact hcounted.spilled_iff

/-- Two actions, the second of which takes a store with room for three bytes to its file. The bytes are those
of both, and a reading in between makes no difference to the next one. -/
theorem read_seal_after_sample :
    ((start ⟨3, none⟩ none).after [Sample.first]).spilled? = some false ∧
      ((start ⟨3, none⟩ none).after [Sample.first, Sample.second]).spilled? = some true ∧
      ∀ handle, ((start ⟨3, none⟩ none).after [Sample.first, Sample.second]).seal.Used false handle →
        (handle.read Sample.four).1 = .ok [1, 2, 3, 4] := by
  have hfirst : ∀ a ∈ [Sample.first], a.outcome = .ok () := by
    intro a ha
    rw [List.mem_singleton.1 ha]
    rfl
  have hboth : ∀ a ∈ [Sample.first, Sample.second], a.outcome = .ok () := by
    intro a ha
    rcases List.mem_cons.1 ha with rfl | ha
    · rfl
    · rw [List.mem_singleton.1 ha]
      rfl
  obtain ⟨-, -, hbelow⟩ := read_seal_after ⟨3, none⟩ none [Sample.first]
  obtain ⟨hreads, -, habove⟩ := read_seal_after ⟨3, none⟩ none [Sample.first, Sample.second]
  refine ⟨hbelow rfl hfirst, habove rfl hboth, fun handle hu => ?_⟩
  rw [((hreads _ (.inl rfl)).2 hu Sample.four).2 Sample.steady_four, if_neg Bool.false_ne_true]
  have hfour := ByteSource.readExact_of_plain (ByteSource.isPlain_plain [1, 2, 3, 4]) (Nat.le_refl 4)
  show ((ByteSource.plain [1, 2, 3, 4]).readExact 4).1.mapError LogError.io = .ok [1, 2, 3, 4]
  rw [hfour]
  rfl

end Store

end ResolutionLog
