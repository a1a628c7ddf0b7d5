import ResolutionLog.Proofs.Description

/-! # Streams that are cut or go on

A graph comes from the frames up to the first root, and from nothing else: what follows is not read, and no
beginning of these frames is enough. A stream that is cut between two frames lacks its root, and one that is
cut within a frame has that frame truncated. Main statement: `materialize_of_prefix`. -/

namespace ResolutionLog

variable {contents : Contents}

/-- A position in a row of frames lies in one of them: behind those before it, and before its end. -/
theorem Frame.exists_at {frames : List Frame} {k : Nat} (h : k < (stream frames).length) :
    ∃ i frame, frames[i]? = some frame ∧ (stream (frames.take i)).length ≤ k ∧
      k < (stream (frames.take (i + 1))).length ∧
      (stream frames).take k =
        stream (frames.take i) ++ frame.bytes.take (k - (stream (frames.take i)).length) := by
  induction frames generalizing k with
  | nil => simp at h
  | cons first frames ih =>
    rw [stream_cons, List.length_append] at h
    by_cases hk : k < first.bytes.length
    · refine ⟨0, first, rfl, Nat.zero_le k, ?_, ?_⟩
      · simpa using hk
      · simp [List.take_append_of_le_length (Nat.le_of_lt hk)]
    · -- the position lies behind the first frame
      have hge : first.bytes.length ≤ k := Nat.le_of_not_lt hk
      obtain ⟨i, frame, hi, hlow, hhigh, htake⟩ := ih (k := k - first.bytes.length) (by omega)
      refine ⟨i + 1, frame, hi, ?_, ?_, ?_⟩
      · rw [List.take_succ_cons, stream_cons, List.length_append]
        omega
      · rw [List.take_succ_cons, stream_cons, List.length_append]
        omega
      · rw [stream_cons, List.take_append, List.take_of_length_le hge, htake, List.take_succ_cons,
          stream_cons, List.length_append, List.append_assoc, Nat.sub_sub]

/-- **A stream that ends in or before a frame of a run** lacks its root, or has that frame truncated. -/
theorem materialize_of_cut {frames : List Frame} {frame : Frame} {records : List Record}
    {record : Record} {d : Draft} {k : Nat} (h : List.Forall₂ Frame.Holds frames records)
    (hframe : frame.Holds record) (hrun : Draft.empty.Run contents records d)
    (hk : k < frame.bytes.length) :
    (materialize contents (.plain (Frame.stream frames ++ frame.bytes.take k))).1 = .error
      (if k = 0 then .rootNotFound records.length
      else .truncatedRecord record.kind (Frame.stream frames).length) := by
  obtain ⟨s, hreads, hs, hd, -, hposition⟩ := RecordReader.reads_frames h
    (RecordReader.plain_start (Frame.stream frames ++ frame.bytes.take k)) rfl
  rw [RecordReader.position_start, RecordReader.Position.zero_after] at hposition
  have hcount : s.records = records.length := congrArg RecordReader.Position.records hposition
  have hoffset : s.position.offset = (Frame.stream frames).length :=
    congrArg RecordReader.Position.offset hposition
  rw [materialize, materializeFrom_run hreads hrun, materializeFrom_eq]
  by_cases hzero : k = 0
  · -- nothing follows the whole frames
    rw [hzero, List.take_zero] at hd
    rw [RecordReader.next_of_no_data hs hd, if_pos hzero]
    show Except.error (LogError.rootNotFound s.records) = _
    rw [hcount]
  · have hfault := hframe.fault_take s.position (Nat.pos_of_ne_zero hzero) hk
    obtain ⟨t, ht⟩ := RecordReader.next_of_fault hs (hd ▸ hfault)
    rw [ht, if_neg hzero, hoffset]

/-- **A cut anywhere in the frames of a run and one more** falls before or into one of them, and the stream
then lacks its root or has that frame truncated. -/
theorem exists_materialize_of_take {frames : List Frame} {records : List Record} {last : Record}
    {d : Draft} {k : Nat} (h : List.Forall₂ Frame.Holds frames (records ++ [last]))
    (hrun : Draft.empty.Run contents records d) (hk : k < (Frame.stream frames).length) :
    ∃ i record, (records ++ [last])[i]? = some record ∧
      (Frame.stream (frames.take i)).length ≤ k ∧ k < (Frame.stream (frames.take (i + 1))).length ∧
      (materialize contents (.plain ((Frame.stream frames).take k))).1 = .error
        (if k = (Frame.stream (frames.take i)).length then .rootNotFound i
        else .truncatedRecord record.kind (Frame.stream (frames.take i)).length) := by
  obtain ⟨i, frame, hi, hlow, hhigh, htake⟩ := Frame.exists_at hk
  obtain ⟨hlt, rfl⟩ := List.getElem?_eq_some_iff.1 hi
  have hlt' : i < (records ++ [last]).length := h.length_eq ▸ hlt
  have hle : i ≤ records.length := by
    rw [List.length_append, List.length_singleton] at hlt'
    omega
  refine ⟨i, (records ++ [last])[i], List.getElem?_eq_getElem hlt', hlow, hhigh, ?_⟩
  -- the frames before the cut are those of a beginning of the run
  have hbefore : List.Forall₂ Frame.Holds (frames.take i) (records.take i) := by
    rw [← List.take_append_of_le_length hle]
    exact List.forall₂_take i h
  rw [← List.take_append_drop i records] at hrun
  obtain ⟨d', hrun', -⟩ := hrun.of_append
  have hinside : k - (Frame.stream (frames.take i)).length < frames[i].bytes.length := by
    rw [List.take_add_one, hi, Option.toList_some, Frame.stream_append, List.length_append,
      Frame.stream_cons, Frame.stream_nil, List.append_nil] at hhigh
    omega
  have hholds : frames[i].Holds (records ++ [last])[i] := h.get hlt hlt'
  rw [htake, materialize_of_cut hbefore hholds hrun' hinside, List.length_take_of_le hle]
  by_cases hboundary : k = (Frame.stream (frames.take i)).length
  · rw [if_pos hboundary, if_pos (Nat.sub_eq_zero_of_le (Nat.le_of_eq hboundary))]
  · rw [if_neg hboundary, if_neg (by omega)]

/-- **What of some bytes makes the graph**: they start with frames, of which the last and no other holds a
root, and exactly these are taken from the source. With anything else behind these frames the graph is the
same and no more is taken. When the bytes end earlier there is no graph: before a frame the root is
missing after as many records as there are frames, and within a frame this frame is truncated. -/
theorem materialize_of_prefix {bytes : List UInt8} {g : Graph}
    (h : (materialize contents (.plain bytes)).1 = .ok g) :
    ∃ frames records root rest n, List.Forall₂ Frame.Holds frames (records ++ [.root root]) ∧
      (∀ key, .root key ∉ records) ∧ bytes = Frame.stream frames ++ rest ∧
      n = (Frame.stream frames).length ∧
      (materialize contents (.plain bytes)).2.source.delivered = n ∧
      (∀ tail, (materialize contents (.plain (bytes.take n ++ tail))).1 = .ok g ∧
        (materialize contents (.plain (bytes.take n ++ tail))).2.source.delivered = n) ∧
      ∀ k < n, ∃ i record, (records ++ [.root root])[i]? = some record ∧
        (Frame.stream (frames.take i)).length ≤ k ∧ k < (Frame.stream (frames.take (i + 1))).length ∧
        (materialize contents (.plain (bytes.take k))).1 = .error
          (if k = (Frame.stream (frames.take i)).length then .rootNotFound i
          else .truncatedRecord record.kind (Frame.stream (frames.take i)).length) := by
  obtain ⟨records, root, s, d, hreads, hrun, hk, hg⟩ := exists_run_of_materializeFrom h
  obtain ⟨frames, rest, hframes, hbytes⟩ := hreads.exists_frames (RecordReader.plain_start _)
  obtain rfl : bytes = Frame.stream frames ++ rest := hbytes
  -- the frames alone decide, whatever follows
  have hwhole : ∀ tail, ∃ t, materialize contents (.plain (Frame.stream frames ++ tail)) = (.ok g, t) ∧
      t.source.delivered = (Frame.stream frames).length := by
    intro tail
    obtain ⟨t, hreads', -, -, hdelivered, -⟩ := RecordReader.reads_frames
      (r := .start (.plain (Frame.stream frames ++ tail))) hframes (RecordReader.plain_start _) rfl
    refine ⟨t, ?_, hdelivered.trans (Nat.zero_add _)⟩
    rw [materialize, materializeFrom_of_run hreads' hrun hk, hg]
  refine ⟨frames, records, root, rest, _, hframes, hrun.root_not_mem, rfl, rfl, ?_, fun tail => ?_,
    fun k hk => ?_⟩
  · obtain ⟨t, ht, hdelivered⟩ := hwhole rest
    rw [ht, hdelivered]
  · rw [List.take_left]
    obtain ⟨t, ht, hdelivered⟩ := hwhole tail
    rw [ht]
    exact ⟨rfl, hdelivered⟩
  · rw [List.take_append_of_le_length (Nat.le_of_lt hk)]
    exact exists_materialize_of_take hframes hrun hk

/-- What is taken of the sample log makes its graph whatever follows, and no part of it does. -/
theorem materialize_of_prefix_sample :
    ∃ bytes g n, (materialize Sample.lookups (.plain bytes)).1 = .ok g ∧
      (materialize Sample.lookups (.plain bytes)).2.source.delivered = n ∧
      (∀ tail, (materialize Sample.lookups (.plain (bytes.take n ++ tail))).1 = .ok g) ∧
      ∀ k < n, ∃ e, (materialize Sample.lookups (.plain (bytes.take k))).1 = .error e := by
  obtain ⟨bytes, g, -, hg, -⟩ := Sample.exists_graph
  obtain ⟨_, _, _, _, n, -, -, -, -, hn, hwhole, hcut⟩ := materialize_of_prefix hg
  refine ⟨bytes, g, n, hg, hn, fun tail => (hwhole tail).1, fun k hk => ?_⟩
  obtain ⟨_, _, -, -, -, he⟩ := hcut k hk
  exact ⟨_, he⟩

end ResolutionLog
