import ResolutionLog.Proofs.Stream

/-! # Reading to the end

What a reader does with any bytes, from the front to where it stops. As long as frames that hold records
follow one another it gives their records and knows after each of them where it stands; behind the last one
it ends without a record if nothing follows, and otherwise fails with the fault that stands there, and the
position stays at the end of the last good frame (`RecordReader.reads_frames_then_tail`). -/

namespace ResolutionLog

/-- The root of the sample log is registered by this frame too; the first length in it is written with a
group more than it needs. -/
def Sample.padded : Frame :=
  .ofBody .newNode ([0, 0x83, 0x00] ++ Wire.textBytes "org" ++ Wire.putText "app" ++
    Wire.putText "1.0" ++ Wire.putText "default")

namespace RecordReader

/-- **A reader at the start of some frames and a tail** gives the records of the frames. After each record it
stands at the end of its frame, has counted the records so far, and knows the kind of the last one. Behind
the frames it ends without a record if the tail is empty, and fails exactly with the fault of the tail if
this has one; then its position stays as it was. So the records of a stream are read back to its end. -/
theorem reads_frames_then_tail {frames : List Frame} {records : List Record}
    (h : List.Forall₂ Frame.Holds frames records) (tail : List UInt8) :
    (∀ i record, records[i]? = some record →
      ∃ s, (start (.plain (Frame.stream frames ++ tail))).Reads (records.take (i + 1)) s ∧
        s.position = ⟨(Frame.stream (frames.take (i + 1))).length, i + 1, some record.kind⟩) ∧
    (∃ s, (start (.plain (Frame.stream frames ++ tail))).Reads records s ∧
      s.position =
        ⟨(Frame.stream frames).length, records.length, records.getLast?.map Record.kind⟩ ∧
      (tail = [] → next s = .ok none s) ∧
      (∀ e, (∃ t, next s = .error e t) ↔ FrameFault s.position tail e) ∧
      ∀ e t, next s = .error e t → t.position = s.position) ∧
    ∀ written bytes, (∀ record ∈ written, record.Named) → Record.stream written = .ok bytes →
      ∃ s, (start (.plain bytes)).Reads written s ∧ next s = .ok none s ∧
        s.position = ⟨bytes.length, written.length, written.getLast?.map Record.kind⟩ := by
  have hplain : (start (.plain (Frame.stream frames ++ tail))).Plain := plain_start _
  refine ⟨fun i record hi => ?_, ?_, fun written bytes hn hs => ?_⟩
  · -- the frames behind the record belong to what follows
    have hd : (start (.plain (Frame.stream frames ++ tail))).source.data =
        Frame.stream (frames.take (i + 1)) ++ (Frame.stream (frames.drop (i + 1)) ++ tail) := by
      rw [← List.append_assoc, ← Frame.stream_append, List.take_append_drop]
      rfl
    have htake : records.take (i + 1) = records.take i ++ [record] := by
      rw [List.take_add_one, hi, Option.toList_some]
    have hlength : (records.take (i + 1)).length = i + 1 :=
      List.length_take_of_le (List.getElem?_eq_some_iff.1 hi).1
    obtain ⟨s, hreads, -, -, -, hposition⟩ := reads_frames (List.forall₂_take (i + 1) h) hplain hd
    refine ⟨s, hreads, ?_⟩
    rw [hposition, position_start, Position.zero_after, hlength, htake, List.getLast?_concat,
      Option.map_some]
  · obtain ⟨s, hreads, hs, hd, -, hposition⟩ := reads_frames h hplain rfl
    rw [position_start, Position.zero_after] at hposition
    refine ⟨s, hreads, hposition, fun htail => next_of_no_data hs (hd.trans htail), fun e => ?_,
      fun e t ht => position_of_next_error ht⟩
    rw [next_eq_error_iff hs, hd]
  · obtain ⟨frames, hframes, rfl⟩ := Record.exists_frames_of_stream hn hs
    obtain ⟨s, hreads, hp, hd, -, hposition⟩ := reads_frames (r := start (.plain (Frame.stream frames)))
      hframes (plain_start _) (List.append_nil _).symm
    rw [position_start, Position.zero_after] at hposition
    exact ⟨s, hreads, next_of_no_data hp hd, hposition⟩

/-- A frame whose body has a longer number in it than a writer would put there, and a header that is cut
short behind it. -/
theorem reads_frames_then_tail_sample :
    List.Forall₂ Frame.Holds [Sample.padded] [.newNode Sample.app] ∧
      ∃ s t, (start (.plain (Frame.stream [Sample.padded] ++ [2, 0, 0]))).Reads
          [.newNode Sample.app] s ∧
        s.position = ⟨27, 1, some .newNode⟩ ∧ next s = .error (.truncatedRecord .root 27) t ∧
        t.position = s.position := by
  have h : List.Forall₂ Frame.Holds [Sample.padded] [.newNode Sample.app] :=
    .cons (.intro (by decide) (by rfl)) .nil
  obtain ⟨-, ⟨s, hreads, hposition, -, hfault, hkept⟩, -⟩ := reads_frames_then_tail h [2, 0, 0]
  have hat : s.position = ⟨27, 1, some .newNode⟩ := hposition
  have hcut : FrameFault s.position [2, 0, 0] (.truncatedRecord .root 27) := by
    rw [hat]
    exact @FrameFault.cutHeader _ .root [0, 0] (by decide)
  obtain ⟨t, ht⟩ := (hfault _).2 hcut
  exact ⟨h, s, t, hreads, hat, ht, hkept _ _ ht⟩

end RecordReader

end ResolutionLog
