import ResolutionLog.Proofs.Spilling

/-! # Counting what is written

A store reports how many bytes it has been given. In memory this is the number of the bytes that are there. A spilling
store counts each action when it has succeeded, and so leaves out what an action writes before it fails, though these
bytes stay: what is missing from the count is just that (`Store.bytesWritten_spill_afterUnder`). That the store moves
to a file, or fails to, does not matter, and whether it fails to may be another matter for each action
(`Store.afterUnder`).

The main statement, `Store.bytesWritten_afterUnder`, compares the count with what is read from the sealed store. -/

namespace ResolutionLog

namespace WriteAction

/-- Whether an action ends without a failure. -/
def succeeds (a : WriteAction) : Bool := a.outcome.isOk

/-- The bytes that failing actions write before they fail. -/
def abandoned (actions : List WriteAction) : List UInt8 :=
  (actions.filter fun a => !a.succeeds).flatMap WriteAction.bytes

/-- An action that fails abandons its bytes. -/
theorem abandoned_cons (a : WriteAction) (actions : List WriteAction) :
    abandoned (a :: actions) = (if a.succeeds then [] else a.bytes) ++ abandoned actions := by
  cases h : a.succeeds <;> simp [abandoned, h]

/-- Nothing is abandoned if failing actions write nothing. -/
theorem abandoned_eq_nil_iff {actions : List WriteAction} :
    abandoned actions = [] ↔ ∀ a ∈ actions, a.succeeds = false → a.bytes = [] := by
  simp only [abandoned, List.flatMap_eq_nil_iff, List.mem_filter, Bool.not_eq_true', and_imp]

end WriteAction

open WriteAction

/-! ## One action -/

namespace SpillStore

/-- Moving to a file does not change the count. -/
@[simp] theorem written_spill (s : SpillStore) : s.spill.2.written = s.written := by
  obtain ⟨threshold, fault?, medium, written⟩ := s
  cases medium <;> cases fault? <;> rfl

/-- An action is counted if it succeeds, whether or not the store can move after it. -/
theorem written_write (s : SpillStore) (a : WriteAction) :
    (s.write a).2.written + (if a.succeeds then [] else a.bytes).length = s.written + a.bytes.length := by
  unfold write WriteAction.succeeds
  cases a.outcome with
  | error e => rfl
  | ok done =>
    simp only
    split
    · rfl
    · exact written_spill _

end SpillStore

/-! ## Many actions -/

namespace Store

/-- The same store when no file can be made for this reason, or for none. -/
def under (fault? : Option IoFault) : Store → Store
  | .spill store => .spill { store with fault? }
  | store => store

/-- The store after some actions, whatever their results, when for each of them it may be another reason, or none, for
which no file can be made. -/
def afterUnder (s : Store) (runs : List (Option IoFault × WriteAction)) : Store :=
  runs.foldl (fun s run => ((s.under run.1).write run.2).2) s

/-- The reason may be the same for all actions. -/
theorem after_eq_afterUnder (store : SpillStore) (actions : List WriteAction) :
    (spill store).after actions = (spill store).afterUnder (actions.map fun a => (store.fault?, a)) := by
  induction actions generalizing store with
  | nil => rfl
  | cons a actions ih =>
    have hrest := ih (store.write a).2
    rw [(store.write_fault a).1] at hrest
    exact hrest

/-- Nothing is lost, whatever happens. -/
theorem TakesAll.content_afterUnder {s : Store} (h : s.TakesAll) (runs : List (Option IoFault × WriteAction)) :
    (s.afterUnder runs).content = s.content ++ (runs.map Prod.snd).flatMap WriteAction.bytes := by
  induction runs generalizing s with
  | nil => exact (List.append_nil _).symm
  | cons run runs ih =>
    have hunder : (s.under run.1).TakesAll ∧ (s.under run.1).content = s.content := by
      cases h with
      | memory journal => exact ⟨.memory journal, rfl⟩
      | spill store => exact ⟨.spill _, rfl⟩
    obtain ⟨htakes, hcontent⟩ := hunder.1.write run.2
    show (((s.under run.1).write run.2).2.afterUnder runs).content = _
    rw [ih htakes, hcontent, hunder.2, List.map_cons, List.flatMap_cons, List.append_assoc]

/-- A store in memory counts what is there. -/
theorem bytesWritten_memory_afterUnder (journal : Journal) (runs : List (Option IoFault × WriteAction)) :
    ((memory journal).afterUnder runs).bytesWritten = ((memory journal).afterUnder runs).content.length := by
  induction runs generalizing journal with
  | nil => exact journal.size_eq_length
  | cons run runs ih => exact ih (journal.append run.2.bytes)

/-- **What a spilling store does not count** is what failing actions write. -/
theorem bytesWritten_spill_afterUnder (store : SpillStore) (runs : List (Option IoFault × WriteAction)) :
    ((spill store).afterUnder runs).bytesWritten + (abandoned (runs.map Prod.snd)).length =
      store.written + ((runs.map Prod.snd).flatMap WriteAction.bytes).length := by
  induction runs generalizing store with
  | nil => rfl
  | cons run runs ih =>
    obtain ⟨fault?, a⟩ := run
    have hfirst : ({ store with fault? }.write a).2.written + (if a.succeeds then [] else a.bytes).length =
      store.written + a.bytes.length := SpillStore.written_write _ a
    have hrest := ih ({ store with fault? }.write a).2
    -- the first action is counted or abandoned, and so are the others, from the store that it leaves
    show ((spill ({ store with fault? }.write a).2).afterUnder runs).bytesWritten +
        (abandoned (a :: runs.map Prod.snd)).length =
      store.written + ((a :: runs.map Prod.snd).flatMap WriteAction.bytes).length
    rw [abandoned_cons, List.flatMap_cons, List.length_append, List.length_append]
    omega

/-- **What a store reports as written**: let the same actions, which may fail, be run on a spilling store with any
threshold, whether or not a file can be made at the time of each, and on a store in memory. Sealed, both have the
bytes of all actions. The store in memory reports their number. The spilling store reports so many fewer as failing
actions have written, so that it agrees with the other one, and with its own bytes, just if failing actions have
written nothing. -/
theorem bytesWritten_afterUnder (config : StoreConfig) (fault? : Option IoFault)
    (runs : List (Option IoFault × WriteAction)) :
    ∃ bytes, ((start config fault?).afterUnder runs).seal.content? = some bytes ∧
      (inMemory.afterUnder runs).seal.content? = some bytes ∧
      (inMemory.afterUnder runs).bytesWritten = bytes.length ∧
      ((start config fault?).afterUnder runs).bytesWritten + (abandoned (runs.map Prod.snd)).length =
        bytes.length ∧
      (((start config fault?).afterUnder runs).bytesWritten = bytes.length ↔
        ∀ run ∈ runs, run.2.succeeds = false → run.2.bytes = []) := by
  have hspill : ((start config fault?).afterUnder runs).content = (runs.map Prod.snd).flatMap WriteAction.bytes :=
    (TakesAll.spill _).content_afterUnder runs
  have hmemory : (inMemory.afterUnder runs).content = (runs.map Prod.snd).flatMap WriteAction.bytes :=
    (TakesAll.memory _).content_afterUnder runs
  have hcount : ((start config fault?).afterUnder runs).bytesWritten + (abandoned (runs.map Prod.snd)).length =
      ((runs.map Prod.snd).flatMap WriteAction.bytes).length := by
    have hwritten := bytesWritten_spill_afterUnder (.start config fault?) runs
    rwa [SpillStore.start, Nat.zero_add] at hwritten
  have hnothing : abandoned (runs.map Prod.snd) = [] ↔
      ∀ run ∈ runs, run.2.succeeds = false → run.2.bytes = [] := by
    rw [abandoned_eq_nil_iff, List.forall_mem_map]
  refine ⟨_, by rw [content?_seal, hspill], by rw [content?_seal, hmemory], ?_, hcount, ?_⟩
  · rw [← hmemory]
    exact bytesWritten_memory_afterUnder .empty runs
  · rw [← hnothing, ← List.length_eq_zero_iff]
    omega

end Store

/-- An action that writes a byte and then fails. -/
def Sample.abandoning : WriteAction := ⟨[.part [1]], .error .missingRoot⟩

/-- **Not everything is counted**: a byte that a failing action has written is in the sealed store, and the store in
memory reports it, but the spilling store does not. -/
theorem Store.not_forall_bytesWritten_eq :
    (¬∀ (config : StoreConfig) (fault? : Option IoFault) (runs : List (Option IoFault × WriteAction))
        (bytes : List UInt8), ((start config fault?).afterUnder runs).seal.content? = some bytes →
      ((start config fault?).afterUnder runs).bytesWritten = bytes.length) ∧
    ¬∀ (config : StoreConfig) (fault? : Option IoFault) (runs : List (Option IoFault × WriteAction)),
      ((start config fault?).afterUnder runs).bytesWritten = (inMemory.afterUnder runs).bytesWritten := by
  constructor
  · intro h
    exact absurd (h .default none [(none, Sample.abandoning)] [1] (by decide +kernel)) (by decide +kernel)
  · intro h
    exact absurd (h .default none [(none, Sample.abandoning)]) (by decide +kernel)

end ResolutionLog
