import ResolutionLog.Proofs.Stream
import ResolutionLog.Recorder

/-! # Recording sessions

A session is any sequence of calls to a recorder over an empty store. Calls may fail in three ways: the
recorder refuses them because of what came before, a record is too long for a frame, or the medium
fails, perhaps in the middle of a frame. The log of a session (`Recorder.play`) keeps all calls with
their results, so that one can say which calls were accepted and whether the medium failed.

`Recorder.Follows` is the invariant that ties a recorder to the log so far; each call keeps it
(`Recorder.Follows.step`). Main statement: a session is handed over exactly when it should be, and what
is handed over is the stream of the accepted records, which a reader gives back
(`Recorder.done_of_session`). -/

namespace ResolutionLog

/-! ## What a write leaves in a store -/

namespace Store

/-- When all parts find room, all their bytes are appended. -/
theorem bytes_of_appendWithin {room room' : Nat} {journal journal' : Journal}
    {parts : List (List UInt8)}
    (h : appendWithin room journal parts = (true, room', journal')) :
    journal'.bytes = journal.bytes ++ parts.flatten := by
  fun_induction appendWithin room journal parts with
  | case1 room journal =>
    cases h
    simp
  | case2 room journal part parts hle ih =>
    rw [ih h, Journal.bytes_append, List.flatten_cons, List.append_assoc]
  | case3 room journal part parts hlt => cases h

/-- When a medium does not break on any part, all their bytes are appended. -/
theorem bytes_of_appendUntil {count count' rest rest' : Nat} {journal journal' : Journal}
    {parts : List (List UInt8)}
    (h : appendUntil count rest journal parts = (true, count', rest', journal')) :
    journal'.bytes = journal.bytes ++ parts.flatten := by
  fun_induction appendUntil count rest journal parts with
  | case1 count journal =>
    cases h
    simp
  | case2 journal part parts => cases h
  | case3 journal part parts count ih =>
    rw [ih h, Journal.bytes_append, List.flatten_cons, List.append_assoc]

/-- A write to a spilling store ends as its action does, unless the store cannot move to a file. -/
theorem spill_write_cases (s : SpillStore) (a : WriteAction) :
    (s.write a).1 = a.outcome ∨ (a.outcome = .ok () ∧ ∃ fault, (s.write a).1 = .error (.io fault)) := by
  unfold SpillStore.write
  simp only
  split
  · next h => exact .inl h.symm
  · next h =>
    split
    · exact .inl h.symm
    · unfold SpillStore.spill
      split
      · exact .inl h.symm
      · exact .inl h.symm
      · next fault _ _ => exact .inr ⟨h, fault, rfl⟩

/-- **A write** ends as its action does, with all bytes of the action appended, unless the medium fails.
That does not happen to an action that only fails itself. -/
theorem write_cases (s : Store) (a : WriteAction) :
    ((s.write a).1 = a.outcome ∧ (s.write a).2.content = s.content ++ a.bytes) ∨
      ((a.outcome = .ok () ∨ a.parts ≠ []) ∧ ∃ fault, (s.write a).1 = .error (.io fault)) := by
  cases s with
  | memory journal => exact .inl ⟨rfl, journal.bytes_append a.bytes⟩
  | spill store =>
    rcases spill_write_cases store a with h | ⟨ha, h⟩
    · exact .inl ⟨h, store.content_write a⟩
    · exact .inr ⟨.inl ha, h⟩
  | limited room journal =>
    simp only [write]
    split
    · next h =>
      refine .inl ⟨rfl, ?_⟩
      rw [WriteAction.bytes_eq]
      exact bytes_of_appendWithin h
    · next h =>
      -- without parts there is nothing that finds no room
      refine .inr ⟨.inr fun hparts => ?_, _, rfl⟩
      rw [hparts, appendWithin] at h
      cases h
  | breaking count rest fault journal =>
    simp only [write]
    split
    · next h =>
      refine .inl ⟨rfl, ?_⟩
      rw [WriteAction.bytes_eq]
      exact bytes_of_appendUntil h
    · next h =>
      refine .inr ⟨.inr fun hparts => ?_, fault, rfl⟩
      rw [hparts, appendUntil] at h
      cases h

/-- **Writing a record** appends its frame, or fails because the record has no frame and appends nothing,
or fails with the medium. -/
theorem write_record_cases (s : Store) (record : Record) :
    (∃ frame, record.frame = .ok frame ∧ (s.write record.writeAction).1 = .ok () ∧
        (s.write record.writeAction).2.content = s.content ++ frame.bytes) ∨
      (∃ fault, (s.write record.writeAction).1 = .error (.unencodable fault) ∧
        (s.write record.writeAction).2.content = s.content) ∨
      ∃ fault, (s.write record.writeAction).1 = .error (.io fault) := by
  -- only a record with a body that is too long has no frame
  by_cases hl : record.encodeBody.length ≤ frameLimit
  · have hf : record.frame = .ok (.ofBody record.kind record.encodeBody) :=
      Record.frame_eq_ok_iff.2 ⟨hl, rfl⟩
    rcases s.write_cases record.writeAction with ⟨h, hc⟩ | ⟨-, h⟩
    · refine .inl ⟨_, hf, ?_, ?_⟩
      · rw [h, Record.writeAction, hf]
        rfl
      · rw [hc, WriteAction.bytes_eq, Record.writeAction, hf]
        simp [Frame.bytes]
    · exact .inr (.inr h)
  · have ha : record.writeAction = .ofParts [] (.error (.unencodable
        (.oversizedBody record.kind record.encodeBody.length))) := by
      simp [Record.writeAction, Record.frame, hl]
    rcases s.write_cases record.writeAction with ⟨h, hc⟩ | ⟨hfail, -⟩
    · refine .inr (.inl ⟨.oversizedBody record.kind record.encodeBody.length, ?_, ?_⟩)
      · rw [h, ha, WriteAction.outcome_ofParts]
      · rw [hc, ha, WriteAction.bytes_eq, WriteAction.parts_ofParts, List.flatten_nil,
          List.append_nil]
    · rw [ha] at hfail
      simp at hfail

end Store

/-! ## Sessions -/

/-- The calls of a session, as the records that they write, with their results. -/
abbrev CallLog := List (Record × Except LogError Unit)

namespace CallLog

/-- The records whose calls succeeded, in order. -/
def accepted (log : CallLog) : List Record :=
  log.filterMap fun (record, result) => if result.isOk then some record else none

/-- Whether the medium failed during a call. -/
def Broke (log : CallLog) : Prop := ∃ record fault, (record, .error (.io fault)) ∈ log

variable {log : CallLog} {record : Record}

/-- A last call that succeeds adds its record to what was accepted. -/
theorem accepted_concat_ok : accepted (log ++ [(record, .ok ())]) = accepted log ++ [record] := by
  rw [accepted, List.filterMap_append]
  rfl

/-- A last call that fails adds nothing to what was accepted. -/
theorem accepted_concat_error {e : LogError} :
    accepted (log ++ [(record, .error e)]) = accepted log := by
  rw [accepted, List.filterMap_append]
  exact List.append_nil _

/-- Only what is called is accepted. -/
theorem mem_of_mem_accepted (h : record ∈ accepted log) : record ∈ log.map Prod.fst := by
  obtain ⟨⟨other, result⟩, hm, heq⟩ := List.mem_filterMap.1 h
  obtain ⟨-, hrecord⟩ := Option.ite_none_right_eq_some.1 heq
  obtain rfl := Option.some.inj hrecord
  exact List.mem_map_of_mem hm

/-- A call lets the medium fail when it returns that failure. -/
theorem broke_concat_iff {result : Except LogError Unit} :
    Broke (log ++ [(record, result)]) ↔ Broke log ∨ ∃ fault, result = .error (.io fault) := by
  simp only [Broke, List.mem_append, List.mem_singleton, Prod.mk.injEq]
  constructor
  · rintro ⟨other, fault, hm | ⟨-, rfl⟩⟩
    · exact .inl ⟨other, fault, hm⟩
    · exact .inr ⟨fault, rfl⟩
  · rintro (⟨other, fault, hm⟩ | ⟨fault, rfl⟩)
    · exact ⟨other, fault, .inl hm⟩
    · exact ⟨record, fault, .inr ⟨rfl, rfl⟩⟩

end CallLog

namespace Recorder

/-- The call that writes a record. -/
def call (r : Recorder) : Record → Except LogError Unit × Recorder
  | .newNode key => r.node key
  | .root key => r.root key
  | .firstLevel key => r.firstLevel key
  | .parentChild parent child artifacts => r.parentChild parent child artifacts
  | .unresolved parent requested reason => r.unresolved parent requested reason

/-- Make some calls one after the other, whatever their results are. -/
def play (r : Recorder) : List Record → CallLog × Recorder
  | [] => ([], r)
  | record :: records =>
    let (result, r) := r.call record
    let (log, r) := r.play records
    ((record, result) :: log, r)

/-- Each call of a recorder appends its record. -/
theorem call_eq_append (r : Recorder) (record : Record) : r.call record = r.append record := by
  cases record <;> rfl

/-- Calls go on from the recorder that the first one has left. -/
theorem play_cons (r : Recorder) (record : Record) (records : List Record) :
    r.play (record :: records) =
      ((record, (r.call record).1) :: ((r.call record).2.play records).1, ((r.call record).2.play records).2) := rfl

/-- Later calls are made where the earlier ones have led to. -/
theorem play_append (r : Recorder) (records later : List Record) :
    r.play (records ++ later) =
      ((r.play records).1 ++ ((r.play records).2.play later).1, ((r.play records).2.play later).2) := by
  induction records generalizing r with
  | nil => rfl
  | cons record records ih => rw [List.cons_append, play_cons, ih, play_cons, List.cons_append]

/-- An accepted root completes a session, and nothing else does. -/
theorem stateAfter_ok_eq_complete_iff {record : Record} :
    stateAfter record (.ok ()) = .complete ↔ ∃ key, record = .root key := by
  cases record <;> simp [stateAfter, Record.kind]

/-- A session does not fail with a record that is accepted. -/
theorem stateAfter_ok_ne_failed (record : Record) : stateAfter record (.ok ()) ≠ .failed := by
  cases record <;> simp [stateAfter, Record.kind]

/-- What a call can do, with its result and the recorder after it. -/
inductive CallStep (r : Recorder) (record : Record) : Except LogError Unit → Recorder → Prop where
  /-- The frame of the record is written. -/
  | accepted {frame : Frame} {store : Store} (recording : r.state = .recording)
      (framed : record.frame = .ok frame)
      (appended : store.content = r.store.content ++ frame.bytes) :
    CallStep r record (.ok ()) ⟨store, stateAfter record (.ok ()), r.records + 1⟩
  /-- The record has no frame, and nothing is written. -/
  | unframed {fault : EncodeFault} {store : Store} (recording : r.state = .recording)
      (unchanged : store.content = r.store.content) :
    CallStep r record (.error (.unencodable fault)) ⟨store, .recording, r.records⟩
  /-- The medium fails; some of the frame may have been written. -/
  | broken {fault : IoFault} {store : Store} (recording : r.state = .recording) :
    CallStep r record (.error (.io fault)) ⟨store, .failed, r.records⟩
  /-- The root has been written. -/
  | afterRoot (complete : r.state = .complete) : CallStep r record (.error .storeSealed) r
  /-- The medium has failed before. -/
  | afterFailure (failed : r.state = .failed) : CallStep r record (.error .recorderFailed) r

/-- **Every call is such a step.** -/
theorem callStep (r : Recorder) (record : Record) :
    r.CallStep record (r.call record).1 (r.call record).2 := by
  rw [call_eq_append]
  cases hstate : r.state with
  | complete =>
    rw [append_of_complete hstate]
    exact .afterRoot hstate
  | failed =>
    rw [append_of_failed hstate]
    exact .afterFailure hstate
  | recording =>
    rw [append, hstate]
    show r.CallStep record (r.store.write record.writeAction).1 _
    -- a write ends in one of three ways, each of which is a step
    rcases r.store.write_record_cases record with ⟨frame, hf, h, hc⟩ | ⟨fault, h, hc⟩ | ⟨fault, h⟩
    · simp only [h]
      exact .accepted hstate hf hc
    · simp only [h]
      exact .unframed hstate hc
    · simp only [h]
      exact .broken hstate

/-! ## The recorder follows the log -/

/-- **A recorder agrees with the log of its session**: it counts the accepted records, it has failed when
the medium has, it is complete when a root has been accepted, and then nothing was accepted after that,
and as long as it has not failed its store holds the stream of the accepted records. -/
structure Follows (r : Recorder) (log : CallLog) : Prop where
  records_eq : r.records = log.accepted.length
  failed_iff : r.state = .failed ↔ log.Broke
  root_not_mem : r.state ≠ .complete → ∀ key, .root key ∉ log.accepted
  root_last : r.state = .complete →
    ∃ front key, log.accepted = front ++ [.root key] ∧ ∀ other, .root other ∉ front
  stream_eq : r.state ≠ .failed → Record.stream log.accepted = .ok r.store.content

/-- A recorder over an empty store agrees with the empty log. -/
theorem follows_start {store : Store} (h : store.content = []) : (start store).Follows [] := by
  refine ⟨rfl, ?_, ?_, ?_, ?_⟩
  · simp [start, CallLog.Broke]
  · exact fun _ key => List.not_mem_nil
  · exact fun hc => nomatch hc
  · intro _
    show Record.stream [] = .ok store.content
    rw [h, Record.stream_nil]

/-- A call that fails without a failure of the medium changes nothing that counts. -/
theorem Follows.concat_error {r r' : Recorder} {log : CallLog} {record : Record} {e : LogError}
    (h : r.Follows log) (he : ∀ fault, e ≠ .io fault) (hstate : r'.state = r.state)
    (hrecords : r'.records = r.records) (hcontent : r'.store.content = r.store.content) :
    r'.Follows (log ++ [(record, .error e)]) := by
  -- the error is not one of the medium
  have hbroke : CallLog.Broke (log ++ [(record, .error e)]) ↔ log.Broke := by
    rw [CallLog.broke_concat_iff, or_iff_left]
    rintro ⟨fault, hfault⟩
    exact he fault (Except.error.inj hfault)
  refine ⟨?_, ?_, ?_, ?_, ?_⟩
  · rw [CallLog.accepted_concat_error, hrecords, h.records_eq]
  · rw [hbroke, hstate, h.failed_iff]
  · rw [CallLog.accepted_concat_error, hstate]
    exact h.root_not_mem
  · rw [CallLog.accepted_concat_error, hstate]
    exact h.root_last
  · rw [CallLog.accepted_concat_error, hstate, hcontent]
    exact h.stream_eq

/-- **A call keeps the agreement**, with the call added to the log. -/
theorem Follows.step {r r' : Recorder} {log : CallLog} {record : Record}
    {result : Except LogError Unit} (h : r.Follows log) (hs : r.CallStep record result r') :
    r'.Follows (log ++ [(record, result)]) := by
  cases hs with
  | @accepted frame store recording framed appended =>
    -- the session was open, so no root is there yet and the store holds whole frames only
    have hroot := h.root_not_mem (by simp [recording])
    have hstream := h.stream_eq (by simp [recording])
    have hbroke : ¬log.Broke := by simp [← h.failed_iff, recording]
    refine ⟨?_, ?_, ?_, ?_, ?_⟩
    · rw [CallLog.accepted_concat_ok, List.length_append, List.length_singleton, ← h.records_eq]
    · rw [CallLog.broke_concat_iff]
      simp [hbroke, stateAfter_ok_ne_failed record]
    · intro hne key hm
      rw [CallLog.accepted_concat_ok, List.mem_append, List.mem_singleton] at hm
      rcases hm with hm | rfl
      · exact hroot key hm
      · exact hne (stateAfter_ok_eq_complete_iff.2 ⟨key, rfl⟩)
    · intro hcomplete
      obtain ⟨key, rfl⟩ := stateAfter_ok_eq_complete_iff.1 hcomplete
      exact ⟨log.accepted, key, CallLog.accepted_concat_ok, hroot⟩
    · intro _
      rw [CallLog.accepted_concat_ok, appended]
      exact Record.stream_concat hstream framed
  | @unframed fault store recording unchanged =>
    exact h.concat_error (fun fault => by simp) recording.symm rfl unchanged
  | @broken fault store recording =>
    -- part of a frame may be in the store, of which nothing is said from now on
    refine ⟨?_, ?_, ?_, ?_, ?_⟩
    · rw [CallLog.accepted_concat_error]
      exact h.records_eq
    · rw [CallLog.broke_concat_iff]
      exact ⟨fun _ => .inr ⟨fault, rfl⟩, fun _ => rfl⟩
    · intro _
      rw [CallLog.accepted_concat_error]
      exact h.root_not_mem (by simp [recording])
    · exact fun hcomplete => nomatch hcomplete
    · exact fun hne => absurd rfl hne
  | afterRoot complete => exact h.concat_error (fun fault => by simp) rfl rfl rfl
  | afterFailure failed => exact h.concat_error (fun fault => by simp) rfl rfl rfl

/-- **Sessions keep the agreement**, whatever is called. -/
theorem Follows.play {r : Recorder} {log : CallLog} (h : r.Follows log) (calls : List Record) :
    (r.play calls).2.Follows (log ++ (r.play calls).1) := by
  induction calls generalizing r log with
  | nil =>
    rw [Recorder.play, List.append_nil]
    exact h
  | cons record calls ih =>
    -- the first call extends the log that the others start from
    rw [Recorder.play, List.append_cons]
    exact ih (h.step (r.callStep record))

/-- The log has the calls that were made. -/
theorem map_fst_play (r : Recorder) (calls : List Record) : (r.play calls).1.map Prod.fst = calls := by
  induction calls generalizing r with
  | nil => rfl
  | cons record calls ih => rw [play, List.map_cons, ih]

/-! ## Handing over -/

/-- The root is missing as long as a recorder is recording. -/
theorem done_eq_missingRoot_iff {r : Recorder} :
    r.done = .error .missingRoot ↔ r.state = .recording := by
  unfold done
  cases r.state <;> simp

/-- A recorder that has failed says so in the end. -/
theorem done_eq_recorderFailed_iff {r : Recorder} :
    r.done = .error .recorderFailed ↔ r.state = .failed := by
  unfold done
  cases r.state <;> simp

/-- A session is still open exactly when no root was accepted and the medium did not fail. -/
theorem Follows.recording_iff {r : Recorder} {log : CallLog} (h : r.Follows log) :
    r.state = .recording ↔ (∀ key, .root key ∉ log.accepted) ∧ ¬log.Broke := by
  rw [← h.failed_iff]
  constructor
  · intro hrecording
    exact ⟨h.root_not_mem (by simp [hrecording]), by simp [hrecording]⟩
  · rintro ⟨hroot, hfailed⟩
    cases hstate : r.state with
    | recording => rfl
    | failed => exact absurd hstate hfailed
    | complete =>
      obtain ⟨front, key, haccepted, -⟩ := h.root_last hstate
      have hm : .root key ∈ log.accepted := haccepted ▸ List.mem_append_right front List.mem_cons_self
      exact absurd hm (hroot key)

/-- Unless the session has failed, its store is read back as the accepted records. -/
theorem Follows.reads {r : Recorder} {log : CallLog} (h : r.Follows log)
    (hn : ∀ record ∈ log.accepted, record.Named) (hstate : r.state ≠ .failed) :
    ∃ s, (RecordReader.start (.plain r.store.content)).Reads log.accepted s ∧
      RecordReader.next s = .ok none s ∧ s.records = r.records ∧
      s.offset = r.store.content.length := by
  have hdata : (ByteSource.plain r.store.content).data = r.store.content ++ [] :=
    (List.append_nil _).symm
  obtain ⟨s, hreads, hplain, hend, hcount, hoffset⟩ :=
    RecordReader.reads_stream hn (h.stream_eq hstate) (RecordReader.plain_start r.store.content) hdata
  refine ⟨s, hreads, RecordReader.next_of_no_data hplain hend, ?_, ?_⟩
  · rw [hcount, h.records_eq]
    exact Nat.zero_add _
  · rw [hoffset]
    exact Nat.zero_add _

/-- **What a session hands over**: with a handle, exactly one root was accepted, and that last; the handle
has the stream of the accepted records, and a reader gives them back and then ends, with the number of
records that the recorder counted and behind the last byte. Without a handle the root is missing exactly
when none was accepted and the medium did not fail, and the recorder has failed exactly when the medium
did. -/
theorem done_of_session {store : Store} {calls : List Record} {log : CallLog} {r : Recorder}
    (hempty : store.content = []) (hn : ∀ record ∈ calls, record.Named)
    (hplay : (start store).play calls = (log, r)) :
    (∀ handle, r.done = .ok handle →
      ∃ front key bytes, log.accepted = front ++ [.root key] ∧ (∀ other, .root other ∉ front) ∧
        Record.stream log.accepted = .ok bytes ∧ handle.content? = some bytes ∧
        ∃ s, (RecordReader.start (.plain bytes)).Reads log.accepted s ∧
          RecordReader.next s = .ok none s ∧ s.records = r.records ∧ s.offset = bytes.length) ∧
    (r.done = .error .missingRoot ↔ (∀ key, .root key ∉ log.accepted) ∧ ¬log.Broke) ∧
    (r.done = .error .recorderFailed ↔ log.Broke) := by
  have hfollows := (follows_start hempty).play calls
  rw [hplay] at hfollows
  have h : r.Follows log := hfollows
  refine ⟨?_, ?_, ?_⟩
  · intro handle hdone
    obtain ⟨hcomplete, rfl⟩ := done_eq_ok_iff.1 hdone
    have hstate : r.state ≠ .failed := by simp [hcomplete]
    -- what was accepted was called, and so has a proper selector
    have hcalls : log.map Prod.fst = calls := by
      rw [← map_fst_play (start store) calls, hplay]
    have hnamed : ∀ record ∈ log.accepted, record.Named := fun record hm =>
      hn record (hcalls ▸ CallLog.mem_of_mem_accepted hm)
    obtain ⟨front, key, haccepted, hfront⟩ := h.root_last hcomplete
    exact ⟨front, key, r.store.content, haccepted, hfront, h.stream_eq hstate,
      r.store.content?_seal, h.reads hnamed hstate⟩
  · rw [done_eq_missingRoot_iff, h.recording_iff]
  · rw [done_eq_recorderFailed_iff, h.failed_iff]

/-- The calls of the sample log, the last of which comes after the root, on a store that moves to a file
with the first of them. -/
theorem done_of_session_sample :
    ∃ log r handle, (start (.start .alwaysSpill none)).play Sample.log = (log, r) ∧
      r.done = .ok handle ∧
      ∃ front key bytes, log.accepted = front ++ [.root key] ∧ (∀ other, .root other ∉ front) ∧
        Record.stream log.accepted = .ok bytes ∧ handle.content? = some bytes ∧
        ∃ s, (RecordReader.start (.plain bytes)).Reads log.accepted s ∧
          RecordReader.next s = .ok none s ∧ s.records = r.records ∧ s.offset = bytes.length := by
  obtain ⟨log, r, hplay⟩ : ∃ log r,
      (start (.start .alwaysSpill none)).play Sample.log = (log, r) := ⟨_, _, (Prod.eta _).symm⟩
  have hok : ((start (.start .alwaysSpill none)).play Sample.log).2.done.isOk = true := by
    decide +kernel
  rw [hplay] at hok
  obtain ⟨handle, hdone⟩ := isOk_iff_exists.1 hok
  exact ⟨log, r, handle, hplay, hdone,
    (done_of_session rfl Sample.named hplay).1 handle hdone⟩

end Recorder

end ResolutionLog
