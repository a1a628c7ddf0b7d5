import ResolutionLog.Proofs.Session

/-! # Refused calls

A recorder refuses a record without trying to write it when its session is over, and a record without a frame is
given up before the first byte of it is written. Such a call leaves no trace. A session from which all refused
calls are taken out therefore goes on as it did, to the same end, on every medium and with whatever failures of it:
`Recorder.play_without_refusals`.

In memory a refused record appends nothing to the journal, which is not the same as no append. Stores that differ
only in this are treated as one (`Store.Same`). -/

namespace ResolutionLog

/-! ## Stores that cannot be told apart -/

namespace Store

/-- Two stores are the same, but for the pieces in which a journal in memory has its bytes. -/
inductive Same : Store → Store → Prop where
  | refl (s : Store) : Same s s
  | memory {journal journal' : Journal} (bytes_eq : journal.bytes = journal'.bytes) :
    Same (.memory journal) (.memory journal')

namespace Same

variable {s t u : Store}

/-- Stores that are the same as a third one are the same. -/
theorem trans (h : s.Same t) (h' : t.Same u) : s.Same u := by
  cases h with
  | refl => exact h'
  | memory bytes_eq =>
    cases h' with
    | refl => exact .memory bytes_eq
    | memory bytes_eq' => exact .memory (bytes_eq.trans bytes_eq')

/-- The same stores have the same bytes. -/
theorem content_eq (h : s.Same t) : s.content = t.content := by
  cases h with
  | refl => rfl
  | memory bytes_eq => exact bytes_eq

/-- The same stores report the same number of bytes. -/
theorem bytesWritten_eq (h : s.Same t) : s.bytesWritten = t.bytesWritten := by
  cases h with
  | refl => rfl
  | memory bytes_eq =>
    show Journal.size _ = Journal.size _
    rw [Journal.size_eq_length, Journal.size_eq_length, bytes_eq]

/-- The same stores have the same handle when they are sealed. -/
theorem seal_eq (h : s.Same t) : s.seal = t.seal := by
  cases h with
  | refl => rfl
  | memory bytes_eq => exact congrArg ReadHandle.ofBytes bytes_eq

/-- An action ends in the same way on both, and leaves them the same. -/
theorem write (h : s.Same t) (a : WriteAction) :
    (s.write a).1 = (t.write a).1 ∧ (s.write a).2.Same (t.write a).2 := by
  cases h with
  | refl => exact ⟨rfl, .refl _⟩
  | memory bytes_eq =>
    refine ⟨rfl, .memory ?_⟩
    rw [Journal.bytes_append, Journal.bytes_append, bytes_eq]

end Same

/-- **An action that gives up before its first byte** fails as it says on every medium, in memory or in a file,
broken or not, and leaves the store the same. -/
theorem write_nothing (s : Store) (e : LogError) :
    (s.write (.ofParts [] (.error e))).1 = .error e ∧ (s.write (.ofParts [] (.error e))).2.Same s := by
  cases s with
  | memory journal => exact ⟨rfl, .memory (journal.bytes_append [] |>.trans (List.append_nil _))⟩
  | spill | limited => exact ⟨rfl, .refl _⟩
  | breaking parts rest fault journal =>
    rw [write, WriteAction.parts_ofParts, appendUntil]
    exact ⟨rfl, .refl _⟩

end Store

/-! ## Refusals -/

/-- Whether a call was refused, because of what came before it or because its record has no frame. -/
def CallLog.isRefusal : Except LogError Unit → Bool
  | .error .storeSealed => true
  | .error .recorderFailed => true
  | .error (.unencodable _) => true
  | _ => false

/-- The calls of a log that were not refused. -/
def CallLog.effective (log : CallLog) : CallLog := log.filter fun (_, result) => !isRefusal result

/-- When a record is refused in being written, it has no frame, and the store stays the same. -/
theorem Store.same_of_refused {s : Store} {record : Record}
    (h : CallLog.isRefusal (s.write record.writeAction).1 = true) : (s.write record.writeAction).2.Same s := by
  rw [Record.writeAction] at h ⊢
  cases hframe : record.frame with
  | error e => exact (s.write_nothing e).2
  | ok frame =>
    -- a frame is written or the medium fails, and neither is a refusal
    rw [hframe] at h
    rcases s.write_cases (.ofParts [frame.header, frame.body] (.ok ())) with ⟨hwritten, -⟩ | ⟨-, fault, hbroken⟩
    · rw [hwritten] at h
      cases h
    · rw [hbroken] at h
      cases h

namespace Recorder

/-- Two sessions are in the same state, with stores that are the same. -/
structure Same (r t : Recorder) : Prop where
  state_eq : r.state = t.state
  records_eq : r.records = t.records
  store : r.store.Same t.store

namespace Same

variable {r t u : Recorder}

/-- A recorder is the same as itself. -/
theorem refl (r : Recorder) : r.Same r := ⟨rfl, rfl, .refl _⟩

/-- Recorders that are the same as a third one are the same. -/
theorem trans (h : r.Same t) (h' : t.Same u) : r.Same u :=
  ⟨h.state_eq.trans h'.state_eq, h.records_eq.trans h'.records_eq, h.store.trans h'.store⟩

/-- The same recorders are sealed or not together. -/
theorem isSealed_eq (h : r.Same t) : r.isSealed = t.isSealed := by rw [isSealed, isSealed, h.state_eq]

/-- The same recorders end alike. -/
theorem done_eq (h : r.Same t) : r.done = t.done := by
  rw [done, done, h.state_eq, h.store.seal_eq]

/-- A call ends in the same way in both sessions, and leaves them the same. -/
theorem call (h : r.Same t) (record : Record) :
    (r.call record).1 = (t.call record).1 ∧ (r.call record).2.Same (t.call record).2 := by
  rw [call_eq_append, call_eq_append]
  cases hstate : r.state with
  | complete =>
    rw [append_of_complete hstate, append_of_complete (h.state_eq.symm.trans hstate)]
    exact ⟨rfl, h⟩
  | failed =>
    rw [append_of_failed hstate, append_of_failed (h.state_eq.symm.trans hstate)]
    exact ⟨rfl, h⟩
  | recording =>
    obtain ⟨hresult, hstore⟩ := h.store.write record.writeAction
    rw [append_of_recording hstate, append_of_recording (h.state_eq.symm.trans hstate), hresult, h.records_eq]
    exact ⟨rfl, rfl, rfl, hstore⟩

end Same

/-- A refusal counts no record and does not end a session. -/
theorem stateAfter_of_refused {result : Except LogError Unit} (h : CallLog.isRefusal result = true) (record : Record) :
    result.isOk = false ∧ stateAfter record result = .recording := by
  unfold CallLog.isRefusal at h
  split at h
  · exact ⟨rfl, rfl⟩
  · exact ⟨rfl, rfl⟩
  · exact ⟨rfl, rfl⟩
  · cases h

/-- **A refused call changes nothing.** -/
theorem same_of_refused {r : Recorder} {record : Record} (h : CallLog.isRefusal (r.call record).1 = true) :
    (r.call record).2.Same r := by
  rw [call_eq_append] at h ⊢
  cases hstate : r.state with
  | complete =>
    rw [append_of_complete hstate]
    exact .refl r
  | failed =>
    rw [append_of_failed hstate]
    exact .refl r
  | recording =>
    rw [append_of_recording hstate] at h ⊢
    obtain ⟨hok, hgoes⟩ := stateAfter_of_refused h record
    refine ⟨hgoes.trans hstate.symm, ?_, Store.same_of_refused h⟩
    rw [hok]
    rfl

/-! ## Sessions that are over -/

/-- A session is over when it refuses every record with one error, and stays as it is. -/
def Over (r : Recorder) (e : LogError) : Prop := ∀ record, r.append record = (.error e, r)

/-- Whatever is called when a session is over is refused, and the session stays as it is. -/
theorem Over.play {r : Recorder} {e : LogError} (h : r.Over e) (calls : List Record) :
    r.play calls = (calls.map fun record => (record, .error e), r) := by
  induction calls with
  | nil => rfl
  | cons record calls ih => rw [play_cons, call_eq_append, h, ih, List.map_cons]

/-- With a failure of the medium a session is over. -/
theorem over_of_broken {r : Recorder} {record : Record} {fault : IoFault}
    (h : (r.call record).1 = .error (.io fault)) : (r.call record).2.Over .recorderFailed := by
  have hs := r.callStep record
  rw [h] at hs
  generalize (r.call record).2 = r' at hs ⊢
  cases hs with
  | broken recording => exact append_of_failed rfl

/-- With a root that is accepted a session is over. -/
theorem over_of_root {r : Recorder} {key : NodeKey} (h : (r.call (.root key)).1 = .ok ()) :
    (r.call (.root key)).2.Over .storeSealed := by
  have hs := r.callStep (.root key)
  rw [h] at hs
  generalize (r.call (.root key)).2 = r' at hs ⊢
  cases hs with
  | accepted recording framed appended => exact append_of_complete rfl

/-- What a log says of one call is what became of it after the calls before it, and the rest of the log is what
became of the others after this one. -/
theorem play_of_log {r : Recorder} {calls : List Record} {before after : CallLog} {record : Record}
    {result : Except LogError Unit} (h : (r.play calls).1 = before ++ (record, result) :: after) :
    ((r.play (before.map Prod.fst)).2.call record).1 = result ∧
      ((r.play (before.map Prod.fst)).2.call record).2.play (after.map Prod.fst) = (after, (r.play calls).2) := by
  have hcalls : calls = before.map Prod.fst ++ record :: after.map Prod.fst := by
    rw [← map_fst_play r calls, h, List.map_append, List.map_cons]
  have hlength : (r.play (before.map Prod.fst)).1.length = before.length := by
    rw [← List.length_map Prod.fst, map_fst_play, List.length_map]
  subst hcalls
  rw [play_append, play_cons] at h ⊢
  obtain ⟨-, hrest⟩ := List.append_inj h hlength
  obtain ⟨hcall, hafter⟩ := List.cons.inj hrest
  exact ⟨congrArg Prod.snd hcall, Prod.ext hafter rfl⟩

/-- **After the call with which a session is over** all calls are refused, and the session is as that call left
it. -/
theorem rest_of_over {r : Recorder} {calls : List Record} {before after : CallLog} {record : Record}
    {result : Except LogError Unit} {e : LogError} (h : (r.play calls).1 = before ++ (record, result) :: after)
    (hover : ((r.play (before.map Prod.fst)).2.call record).2.Over e) :
    (∀ call ∈ after, call.2 = .error e) ∧ (r.play calls).2 = (r.play (before.map Prod.fst ++ [record])).2 := by
  obtain ⟨-, hafter⟩ := play_of_log h
  rw [hover.play] at hafter
  obtain ⟨hcalls, hend⟩ := Prod.mk.inj hafter
  rw [play_append]
  refine ⟨fun call hm => ?_, hend.symm⟩
  rw [← hcalls] at hm
  obtain ⟨_, -, rfl⟩ := List.mem_map.1 hm
  rfl

/-! ## Sessions without refused calls -/

/-- **A session goes on without its refused calls as it did with them**: the others end in the same way, and the
session comes to the same state. -/
theorem Same.play_effective {r t : Recorder} (h : r.Same t) (calls : List Record) :
    (t.play ((r.play calls).1.effective.map Prod.fst)).1 = (r.play calls).1.effective ∧
      (r.play calls).2.Same (t.play ((r.play calls).1.effective.map Prod.fst)).2 := by
  induction calls generalizing r t with
  | nil => exact ⟨rfl, h⟩
  | cons record calls ih =>
    rw [play_cons]
    cases hrefused : CallLog.isRefusal (r.call record).1 with
    | true =>
      -- the call is left out, and both sessions are still the same
      rw [CallLog.effective, List.filter_cons_of_neg (by simp [hrefused])]
      exact ih ((same_of_refused hrefused).trans h)
    | false =>
      obtain ⟨hresult, hsame⟩ := h.call record
      obtain ⟨hlog, hend⟩ := ih hsame
      rw [CallLog.effective, List.filter_cons_of_pos (by simp [hrefused]), List.map_cons, play_cons, ← hresult]
      exact ⟨congrArg _ hlog, hend⟩

/-- **Refused calls leave no trace**, on any medium. Let all calls that were refused be taken out of a session. Then
each of the others ends as it did, and the session has the same number of records, is complete if it was, and has
the same bytes, number of bytes and outcome. After the first failure of the medium no call succeeds or changes
anything any more, and neither does one after the root. -/
theorem play_without_refusals (r : Recorder) (calls : List Record) :
    let log := (r.play calls).1
    let s := (r.play calls).2
    (∃ s', r.play (log.effective.map Prod.fst) = (log.effective, s') ∧ s'.records = s.records ∧
      s'.isSealed = s.isSealed ∧ s'.store.content = s.store.content ∧
      s'.store.bytesWritten = s.store.bytesWritten ∧ s'.done = s.done) ∧
    (∀ before record fault after, log = before ++ (record, .error (.io fault)) :: after →
      (∀ call ∈ after, call.2 = .error .recorderFailed) ∧ s = (r.play (before.map Prod.fst ++ [record])).2) ∧
    ∀ before key after, log = before ++ (.root key, .ok ()) :: after →
      (∀ call ∈ after, call.2 = .error .storeSealed) ∧ s = (r.play (before.map Prod.fst ++ [.root key])).2 := by
  intro log s
  refine ⟨?_, fun before record fault after h => ?_, fun before key after h => ?_⟩
  · obtain ⟨hlog, hsame⟩ := (Same.refl r).play_effective calls
    exact ⟨_, Prod.ext hlog rfl, hsame.records_eq.symm, hsame.isSealed_eq.symm, hsame.store.content_eq.symm,
      hsame.store.bytesWritten_eq.symm, hsame.done_eq.symm⟩
  · exact rest_of_over h (over_of_broken (play_of_log h).1)
  · exact rest_of_over h (over_of_root (play_of_log h).1)

/-- The sample log has one call after the root, which can be left out; and on a medium that breaks in the second
record all calls after that are refused. -/
theorem play_without_refusals_sample :
    (∃ s', (start (.start .alwaysSpill none)).play (Sample.before ++ [.root Sample.app]) =
        (((start (.start .alwaysSpill none)).play Sample.log).1.effective, s') ∧
      s'.done = ((start (.start .alwaysSpill none)).play Sample.log).2.done) ∧
    ∃ before record fault after,
      ((start (.breaking 3 2 (.reported "unplugged") .empty)).play Sample.log).1 =
          before ++ (record, .error (.io fault)) :: after ∧
        after.length = 9 ∧ ∀ call ∈ after, call.2 = .error .recorderFailed := by
  constructor
  · obtain ⟨⟨s', hplay, -, -, -, -, hdone⟩, -⟩ := play_without_refusals (start (.start .alwaysSpill none)) Sample.log
    have hcalls : ((start (.start .alwaysSpill none)).play Sample.log).1.effective.map Prod.fst =
        Sample.before ++ [.root Sample.app] := by
      decide +kernel
    rw [hcalls] at hplay
    exact ⟨s', hplay, hdone⟩
  · obtain ⟨-, hbroken, -⟩ :=
      play_without_refusals (start (.breaking 3 2 (.reported "unplugged") .empty)) Sample.log
    have hlog : ((start (.breaking 3 2 (.reported "unplugged") .empty)).play Sample.log).1 =
        [(.newNode Sample.app, .ok ())] ++ (.newNode Sample.compile, .error (.io (.reported "unplugged"))) ::
          (Sample.log.drop 2).map (·, .error .recorderFailed) := by
      decide +kernel
    exact ⟨_, _, _, _, hlog, rfl, (hbroken _ _ _ _ hlog).1⟩

end Recorder

end ResolutionLog
