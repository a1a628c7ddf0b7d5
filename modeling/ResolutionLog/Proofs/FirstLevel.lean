import ResolutionLog.Proofs.Description

/-! # Which first-level dependencies are kept

The first level of a graph is a table by selectors, so a record of a first-level dependency can take the
place of an earlier one: the two need not name the same node, only nodes that one selector requested. The
main statement says exactly which nodes stay (`mem_firstLevel_iff`): those with a record that is the last
one for its selector. So all stay when different nodes were requested by different selectors, and in
general they do not (`not_forall_mem_firstLevel`). -/

namespace ResolutionLog

variable {contents : Contents}

/-! ## The last record for a selector -/

namespace Record

/-- No first-level dependency is found for a selector when none was requested by it. -/
theorem requestedBy_eq_nil_iff {selector : Selector} {records : List Record} :
    requestedBy contents selector records = [] ↔
      ∀ key, .firstLevel key ∈ records → contents.requested key ≠ .found selector := by
  rw [requestedBy, List.filterMap_eq_nil_iff]
  constructor
  · intro h key hm hs
    have hkey := h _ hm
    simp [hs] at hkey
  · intro h record hm
    cases record with
    | firstLevel key => simpa using h key hm
    | newNode | root | parentChild | unresolved => rfl

/-- The last first-level dependency for a selector comes from a record with no further one after it. -/
theorem getLast?_requestedBy_eq_some_iff {selector : Selector} {records : List Record}
    {key : NodeKey} : (requestedBy contents selector records).getLast? = some key ↔
      ∃ earlier later, records = earlier ++ .firstLevel key :: later ∧
        contents.requested key = .found selector ∧ requestedBy contents selector later = [] := by
  constructor
  · intro h
    obtain ⟨front, hfront⟩ := List.getLast?_eq_some_iff.1 h
    obtain ⟨earlier, rest, rfl, -, hrest⟩ := List.filterMap_eq_append_iff.1 hfront
    obtain ⟨skipped, record, later, rfl, -, hrecord, hlater⟩ := List.filterMap_eq_cons_iff.1 hrest
    -- only a first-level record requested by the selector yields a key
    cases record with
    | firstLevel other =>
      simp only [Option.ite_none_right_eq_some, Option.some.injEq] at hrecord
      obtain ⟨hs, rfl⟩ := hrecord
      exact ⟨earlier ++ skipped, later, by rw [List.append_assoc], hs, hlater⟩
    | newNode | root | parentChild | unresolved => cases hrecord
  · rintro ⟨earlier, later, rfl, hs, hlater⟩
    have hone : requestedBy contents selector [.firstLevel key] = [key] := by
      simp [requestedBy, hs]
    rw [List.append_cons, requestedBy_append, requestedBy_append, hone, hlater, List.append_nil,
      List.getLast?_concat]

end Record

/-! ## First-level dependencies of a graph -/

/-- In a run, whatever is entered in the first level was requested by some selector. -/
theorem Draft.Run.firstLevel_requested {records : List Record} {d d' : Draft} {key : NodeKey}
    (h : Run contents d records d') (hm : .firstLevel key ∈ records) :
    ∃ selector, contents.requested key = .found selector := by
  induction h with
  | nil d => cases hm
  | cons head tail ih =>
    rcases List.mem_cons.1 hm with rfl | hm
    · cases head with
      | firstLevel mem found => exact ⟨_, found⟩
    · exact ih hm

/-- **A first-level dependency is kept** exactly when it has a record, before the first root, after which
no first-level dependency with the same selector comes. -/
theorem mem_firstLevel_iff {records : List Record} {bytes : List UInt8} {g : Graph}
    (hs : Record.stream records = .ok bytes) (h : materializeBytes contents bytes = .ok g) :
    ∃ before root after, records = before ++ .root root :: after ∧ (∀ key, .root key ∉ before) ∧
      ∀ key, key ∈ g.firstLevel.values ↔
        ∃ earlier later, before = earlier ++ .firstLevel key :: later ∧
          ∀ other, .firstLevel other ∈ later → contents.requested other ≠ contents.requested key := by
  obtain ⟨before, root, after, d, hrecords, hrun, -, hg⟩ := exists_run_of_stream hs h
  obtain ⟨rfl, -⟩ := Draft.finish_eq_ok_iff.1 hg
  refine ⟨before, root, after, hrecords, hrun.root_not_mem, fun key => ?_⟩
  rw [mem_values_iff]
  simp only [(hrun.described root).firstLevel_eq, Record.getLast?_requestedBy_eq_some_iff,
    Record.requestedBy_eq_nil_iff]
  constructor
  · rintro ⟨selector, earlier, later, rfl, hkey, hlater⟩
    exact ⟨earlier, later, rfl, fun other hm => hkey ▸ hlater other hm⟩
  · rintro ⟨earlier, later, rfl, hlater⟩
    obtain ⟨selector, hkey⟩ := hrun.firstLevel_requested
      (List.mem_append_right earlier List.mem_cons_self)
    exact ⟨selector, earlier, later, rfl, hkey, fun other hm => hkey ▸ hlater other hm⟩

/-- In the sample log one of two first-level dependencies is kept. -/
theorem mem_firstLevel_iff_sample :
    ∃ bytes g, Record.stream Sample.log = .ok bytes ∧
      materializeBytes Sample.lookups bytes = .ok g ∧
      ∃ before root after, Sample.log = before ++ .root root :: after ∧
        (∀ key, .root key ∉ before) ∧
        ∀ key, key ∈ g.firstLevel.values ↔
          ∃ earlier later, before = earlier ++ .firstLevel key :: later ∧
            ∀ other, .firstLevel other ∈ later →
              Sample.lookups.requested other ≠ Sample.lookups.requested key := by
  obtain ⟨bytes, g, hs, hg, -⟩ := Sample.exists_graph
  exact ⟨bytes, g, hs, hg, mem_firstLevel_iff hs hg⟩

/-- **Not every first-level dependency is kept**: in the sample log one selector requested two nodes of
one component, and only the later one is in the first level. -/
theorem not_forall_mem_firstLevel :
    ¬∀ (contents : Contents) (before after : List Record) (root : NodeKey) (bytes : List UInt8)
      (g : Graph), (∀ record ∈ before ++ .root root :: after, record.Named) →
      Record.stream (before ++ .root root :: after) = .ok bytes →
      materializeBytes contents bytes = .ok g → (∀ key, .root key ∉ before) →
      ∀ key, .firstLevel key ∈ before → key ∈ g.firstLevel.values := by
  intro h
  obtain ⟨bytes, g, hs, hg, hfirst⟩ := Sample.exists_graph
  have hroot : ∀ key, .root key ∉ Sample.before := by simp [Sample.before]
  have hlost := h Sample.lookups Sample.before _ Sample.app bytes g Sample.named hs hg hroot
    Sample.compile (by decide)
  rw [hfirst] at hlost
  exact absurd hlost (by decide)

end ResolutionLog
