import Mathlib.Algebra.Group.Nat.Defs
import ResolutionLog.Proofs.Delimited
import ResolutionLog.Proofs.Reading

/-! # Writing again what was read

A reader also takes numbers in longer forms than a writer gives them, so what is read need not have been written in
the way in which it would be written now. It is never longer when it is written again: a number takes as few groups
as it can (`Wire.Varint.length_write_add_le`), and everything else is made of numbers and of bytes that stay as they
are (`Record.length_encodeBody_add_le`). Hence whatever came out of a frame goes into one, and comes out of it again
as it was. Main statement: `Record.written_again`. -/

namespace ResolutionLog

/-! ## Numbers and texts -/

namespace Wire

/-- A number that is read is one that may be written. -/
theorem Varint.read_lt {lastMax groups n : Nat} {bytes rest : List UInt8}
    (h : read lastMax (groups + 1) bytes = .ok (n, rest)) : n < (lastMax + 1) * 128 ^ groups := by
  -- the last group has a limit of its own, and each group before it stands for seven more bits
  induction groups generalizing n bytes rest with
  | zero =>
    cases bytes with
    | nil => cases h
    | cons b bytes =>
      rw [read] at h
      split at h
      · split at h
        · cases h
        · next hlarge =>
          obtain ⟨rfl, -⟩ := Prod.mk.inj (Except.ok.inj h)
          omega
      · cases h
  | succ groups ih =>
    have hone : 1 ≤ (lastMax + 1) * 128 ^ groups := Nat.mul_pos (Nat.succ_pos _) (Nat.pow_pos (by omega))
    rw [Nat.pow_succ, ← Nat.mul_assoc]
    cases bytes with
    | nil => cases h
    | cons b bytes =>
      rw [read] at h
      split at h
      · next hlast =>
        split at h
        · cases h
        · obtain ⟨rfl, -⟩ := Prod.mk.inj (Except.ok.inj h)
          omega
      · have hb := b.toNat_lt
        split at h
        · cases h
        · next high _ hhigh =>
          obtain ⟨rfl, -⟩ := Prod.mk.inj (Except.ok.inj h)
          have hlt := ih hhigh
          omega

/-- **Numbers are written in no more bytes** than they were read from. -/
theorem Varint.length_write_add_le {lastMax groups n : Nat} {bytes rest : List UInt8}
    (h : read lastMax groups bytes = .ok (n, rest)) :
    (write groups n).length + rest.length ≤ bytes.length := by
  induction groups generalizing n bytes rest with
  | zero => cases h
  | succ groups ih =>
    cases bytes with
    | nil => cases h
    | cons b bytes =>
      rw [read] at h
      split at h
      · next hlast =>
        split at h
        · cases h
        · obtain ⟨rfl, rfl⟩ := Prod.mk.inj (Except.ok.inj h)
          rw [write, if_pos hlast, List.length_singleton, List.length_cons]
          omega
      · have hb := b.toNat_lt
        split at h
        · cases h
        · next high _ hhigh =>
          obtain ⟨rfl, rfl⟩ := Prod.mk.inj (Except.ok.inj h)
          have hle := ih hhigh
          rw [write, List.length_cons]
          split
          · -- the groups after the first are all zero and are left out
            rw [List.length_singleton]
            omega
          · have hdiv : (b.toNat - 128 + 128 * high) / 128 = high := by omega
            rw [hdiv, List.length_cons]
            omega

/-- A word that was read fits into 64 bits. -/
theorem toNat_ofNat_of_takeWord {n : Nat} {bytes rest : List UInt8} (h : takeWord bytes = .ok (n, rest)) :
    (UInt64.ofNat n).toNat = n := by
  have hlt : n < (1 + 1) * 128 ^ 9 := Varint.read_lt h
  exact UInt64.toNat_ofNat_of_lt (Nat.lt_of_lt_of_le hlt (by decide))

/-- A text is written again in at most as many bytes as it was read from. -/
theorem length_putText_add_le {s : String} {bytes rest : List UInt8}
    (h : takeText bytes = .ok (s, rest)) : (putText s).length + rest.length ≤ bytes.length := by
  rw [takeText_eq_bind, bind_eq_ok_iff] at h
  obtain ⟨⟨length, content⟩, hlength, hcontent⟩ := h
  obtain ⟨rfl, rfl⟩ := takeContent_eq_ok_iff.1 hcontent
  have hword : (putWord s.utf8ByteSize).length + (textBytes s ++ rest).length ≤ bytes.length :=
    Varint.length_write_add_le hlength
  rw [List.length_append] at hword
  rw [putText, List.length_append]
  omega

/-- A text that may be missing is written again in at most as many bytes as it was read from. -/
theorem length_putOption_add_le {o : Option String} {bytes rest : List UInt8}
    (h : takeOption bytes = .ok (o, rest)) : (putOption o).length + rest.length ≤ bytes.length := by
  cases bytes with
  | nil => cases h
  | cons b bytes =>
    rw [takeOption] at h
    split at h
    · cases h
      rw [putOption, List.length_singleton, List.length_cons]
      omega
    · split at h
      · obtain ⟨⟨s, after⟩, htext, hrest⟩ := bind_eq_ok_iff.1 h
        cases hrest
        have hs := length_putText_add_le htext
        rw [putOption, List.length_cons, List.length_cons]
        omega
      · cases h

end Wire

open Wire

/-! ## Components, keys and selectors -/

/-- A component is written again in at most as many bytes as it was read from. -/
theorem ComponentId.length_put_add_le {id : ComponentId} {bytes rest : List UInt8}
    (h : take bytes = .ok (id, rest)) : id.put.length + rest.length ≤ bytes.length := by
  rw [take_eq_bind, bind_eq_ok_iff] at h
  obtain ⟨⟨variant, parts⟩, hindex, hparts⟩ := h
  have hvariant : (putIndex variant).length + parts.length ≤ bytes.length :=
    Varint.length_write_add_le hindex
  match variant with
  | 0 =>
    simp only [takeParts, bind_eq_ok_iff, Prod.exists, Except.ok.injEq, Prod.mk.injEq] at hparts
    obtain ⟨group, names, hgroup, name, versions, hname, version, _, hversion, rfl, rfl⟩ := hparts
    have h1 := length_putText_add_le hgroup
    have h2 := length_putText_add_le hname
    have h3 := length_putText_add_le hversion
    simp only [put, List.length_append]
    omega
  | 1 =>
    simp only [takeParts, bind_eq_ok_iff, Prod.exists, Except.ok.injEq, Prod.mk.injEq] at hparts
    obtain ⟨build, paths, hbuild, path, _, hpath, rfl, rfl⟩ := hparts
    have h1 := length_putText_add_le hbuild
    have h2 := length_putText_add_le hpath
    simp only [put, List.length_append]
    omega
  | _ + 2 => cases hparts

/-- A node key is written again in at most as many bytes as it was read from. -/
theorem NodeKey.length_put_add_le {key : NodeKey} {bytes rest : List UInt8}
    (h : take bytes = .ok (key, rest)) : key.put.length + rest.length ≤ bytes.length := by
  simp only [take, bind_eq_ok_iff, Prod.exists, pure, Except.pure, Except.ok.injEq, Prod.mk.injEq] at h
  obtain ⟨component, configurations, hcomponent, configuration, _, hconfiguration, rfl, rfl⟩ := h
  have h1 := ComponentId.length_put_add_le hcomponent
  have h2 := length_putText_add_le hconfiguration
  simp only [put, List.length_append]
  omega

/-- **Selectors are written in no more bytes** than they were read from. -/
theorem Selector.length_put_add_le {s : Selector} {bytes rest : List UInt8}
    (h : take bytes = .ok (s, rest)) : s.put.length + rest.length ≤ bytes.length := by
  cases takenFrom_of_take h with
  | build path_taken _ =>
    have h1 := length_putText_add_le path_taken
    simp only [put, putParts, List.length_cons]
    omega
  | module group_taken name_taken version_taken _ =>
    have h1 := length_putText_add_le group_taken
    have h2 := length_putText_add_le name_taken
    have h3 := length_putText_add_le version_taken
    simp only [put, putParts, List.length_cons, List.length_append]
    omega
  | library path_taken name_taken variant_taken _ =>
    have h1 := length_putText_add_le path_taken
    have h2 := length_putOption_add_le name_taken
    have h3 := length_putOption_add_le variant_taken
    simp only [put, putParts, List.length_cons, List.length_append]
    omega

/-! ## Records -/

namespace Record

/-- **Bodies are written in no more bytes** than they were read from. -/
theorem length_encodeBody_add_le {kind : RecordKind} {bytes rest : List UInt8} {record : Record}
    (h : takeFields bytes kind = .ok (record, rest)) :
    record.encodeBody.length + rest.length ≤ bytes.length := by
  cases kind <;> simp only [takeFields, takeField, bind_eq_ok_iff, mapError_eq_ok_iff, Prod.exists, pure,
    Except.pure, Except.ok.injEq, Prod.mk.injEq] at h
  case newNode | root | firstLevel =>
    obtain ⟨key, _, hkey, rfl, rfl⟩ := h
    exact NodeKey.length_put_add_le hkey
  case parentChild =>
    obtain ⟨parent, children, hparent, child, numbers, hchild, number, after, hnumber, rfl, rfl⟩ := h
    have h1 := NodeKey.length_put_add_le hparent
    have h2 := NodeKey.length_put_add_le hchild
    have h3 : (putWord number).length + after.length ≤ numbers.length := Varint.length_write_add_le hnumber
    simp only [encodeBody, toNat_ofNat_of_takeWord hnumber, List.length_append]
    omega
  case unresolved =>
    obtain ⟨parent, selectors, hparent, requested, reasons, hrequested, reason, _, hreason, rfl, rfl⟩ := h
    have h1 := NodeKey.length_put_add_le hparent
    have h2 := Selector.length_put_add_le hrequested
    have h3 := length_putText_add_le hreason
    simp only [encodeBody, List.length_append]
    omega

/-- A record that a body of a frame decodes to has a frame, and is decoded from its body. -/
theorem holds_of_decodeBody {kind : RecordKind} {body : List UInt8} {record : Record}
    (hl : body.length ≤ frameLimit) (h : decodeBody kind body = .ok record) :
    record.encodeBody.length ≤ body.length ∧
      ∃ frame, record.frame = .ok frame ∧ frame.Holds record := by
  have hle : record.encodeBody.length ≤ body.length :=
    length_encodeBody_add_le (decodeBody_eq_ok_iff.1 h)
  have hframe : record.frame = .ok (.ofBody record.kind record.encodeBody) :=
    frame_eq_ok_iff.2 ⟨Nat.le_trans hle hl, rfl⟩
  exact ⟨hle, _, hframe, holds_frame (named_of_decodeBody h) hframe⟩

end Record

/-! ## Records out of streams -/

namespace ByteSource

/-- A source without a buffer gives no more bytes than it is asked for. -/
theorem length_content_answer_le {s t : ByteSource} {count : Nat} {content : List UInt8}
    (h : s.answer count = (.ok content, t)) : content.length ≤ count := by
  have hdeliver : ∀ {s t : ByteSource} {count : Nat}, s.deliver count = (.ok content, t) →
      content.length ≤ count := by
    intro s t count h
    unfold deliver at h
    split at h
    · cases h
    · obtain ⟨hcontent, -⟩ := Prod.mk.inj h
      rw [← Except.ok.inj hcontent, List.length_take, allowance]
      split <;> omega
  unfold answer at h
  split at h
  · exact hdeliver h
  · cases h
  · have hle := hdeliver h
    omega

/-- A buffer gives no more bytes than it is asked for. -/
theorem length_content_give_le {s t : ByteSource} {held count : Nat} {content : List UInt8}
    (h : s.give held count = (.ok content, t)) : content.length ≤ count := by
  obtain ⟨hcontent, -⟩ := Prod.mk.inj h
  rw [← Except.ok.inj hcontent, List.length_take]
  omega

/-- A request is met with no more bytes than were asked for. -/
theorem length_content_read_le {s t : ByteSource} {count : Nat} {content : List UInt8}
    (h : s.read count = (.ok content, t)) : content.length ≤ count := by
  unfold read at h
  split at h
  · exact length_content_answer_le h
  · split at h
    · exact length_content_answer_le h
    · split at h
      · cases h
      · exact length_content_give_le h
  · exact length_content_give_le h

/-- Requests in a row give as many bytes as were asked for, behind those that were there. -/
theorem length_of_readOnto {s t : ByteSource} {count : Nat} {parts : List (List UInt8)} {content : List UInt8}
    (h : s.readOnto count parts = (.ok content, t)) : content.length = count + parts.flatten.length := by
  fun_induction readOnto s count parts with
  | case1 s parts =>
    obtain ⟨hcontent, -⟩ := Prod.mk.inj h
    rw [← Except.ok.inj hcontent, Nat.zero_add, List.length_flatten, List.length_flatten, List.map_reverse,
      List.sum_reverse]
  | case2 | case5 => cases h
  | case3 s count parts hpos delivered after hread hsome ih =>
    have hle := length_content_read_le hread
    rw [ih h, List.flatten_cons, List.length_append]
    omega
  | case4 s count parts hpos fault after hread hkind ih => exact ih h

/-- Requests for an exact number of bytes give this number of bytes. -/
theorem length_of_readExact {s t : ByteSource} {count : Nat} {content : List UInt8}
    (h : s.readExact count = (.ok content, t)) : content.length = count := length_of_readOnto h

end ByteSource

namespace RecordReader

/-- A part of a frame has as many bytes as were asked for. -/
theorem length_of_takePart {r s : RecordReader} {kind : RecordKind} {count : Nat} {content : List UInt8}
    (h : takePart kind count r = .ok content s) : content.length = count := by
  unfold takePart at h
  split at h
  · next hread =>
    cases h
    exact ByteSource.length_of_readExact hread
  · cases h

/-- A body is short enough for a frame. -/
theorem length_takeBody_le {r s : RecordReader} {kind : RecordKind} {body : List UInt8}
    (h : takeBody kind r = .ok body s) : body.length ≤ frameLimit := by
  unfold takeBody at h
  split at h
  · cases h
  · simp only at h
    split at h
    · cases h
    · next hfits =>
      rw [length_of_takePart h]
      omega

/-- A record that is read comes out of a body short enough for a frame, whatever the source is. -/
theorem exists_body_of_next {r s : RecordReader} {record : Record} (h : next r = .ok (some record) s) :
    ∃ body, body.length ≤ frameLimit ∧ Record.decodeBody record.kind body = .ok record ∧
      s.offset = r.offset + headerLength + body.length := by
  unfold next at h
  split at h
  · cases h
  · cases h
  · next tag behindTag htag =>
    split at h
    · cases h
    · next kind _ =>
      split at h
      · cases h
      · next body behindBody hbody =>
        split at h
        · cases h
        · next found hdecode =>
          cases h
          refine ⟨body, length_takeBody_le hbody, by rwa [Record.kind_of_decodeBody hdecode], ?_⟩
          -- neither part of the frame moves the position
          have hfirst : behindTag.offset = r.offset := by
            obtain ⟨_, ⟨_, hcase⟩ | ⟨_, hcase⟩⟩ := takeTag_cases r <;> rw [htag] at hcase <;> cases hcase
            rfl
          have hsecond : behindBody.offset = behindTag.offset := by
            obtain ⟨_, ⟨_, hcase⟩ | ⟨_, hcase⟩⟩ := takeBody_cases kind behindTag <;> rw [hbody] at hcase <;>
              cases hcase
            rfl
          show behindBody.offset + headerLength + body.length = _
          rw [hsecond, hfirst]

/-- Records that are read, from whatever source, make a stream, which is no longer than the frames that they were
read from. -/
theorem Reads.exists_stream {r s : RecordReader} {records : List Record} (h : r.Reads records s) :
    ∃ bytes, Record.stream records = .ok bytes ∧ r.offset + bytes.length ≤ s.offset := by
  induction h with
  | nil r => exact ⟨[], rfl, Nat.le_refl _⟩
  | cons head tail ih =>
    obtain ⟨body, hl, hdecode, hoffset⟩ := exists_body_of_next head
    obtain ⟨hle, frame, hframe, hholds⟩ := Record.holds_of_decodeBody hl hdecode
    obtain ⟨bytes, hstream, hbytes⟩ := ih
    obtain ⟨-, rfl⟩ := Record.frame_eq_ok_iff.1 hframe
    refine ⟨_, Record.stream_cons_eq_ok_iff.2 ⟨_, bytes, hframe, hstream, rfl⟩, ?_⟩
    rw [List.length_append, Frame.length_bytes_ofBody]
    omega

end RecordReader

namespace Record

open RecordReader

/-- **What is read can be written again**: a record that some bytes, short enough for a frame, decode to has a body
that is no longer than these bytes and decodes to the same record, so it has a frame, and is read from this frame,
whatever follows. The records that a reader gives, from whatever source, make a stream that is no longer than what
they were read from, and are read from this stream to its end. -/
theorem written_again :
    (∀ kind body record, body.length ≤ frameLimit → decodeBody kind body = .ok record →
      record.encodeBody.length ≤ body.length ∧ decodeBody kind record.encodeBody = .ok record ∧
      ∃ frame, record.frame = .ok frame ∧ ∀ rest, ∃ s,
        next (start (.plain (frame.bytes ++ rest))) = .ok (some record) s ∧ s.source.data = rest) ∧
    ∀ source records s, (start source).Reads records s →
      ∃ bytes, Record.stream records = .ok bytes ∧ bytes.length ≤ s.offset ∧
        ∃ t, (start (.plain bytes)).Reads records t ∧ next t = .ok none t := by
  refine ⟨fun kind body record hl h => ?_, fun source records s h => ?_⟩
  · obtain ⟨hle, frame, hframe, hholds⟩ := holds_of_decodeBody hl h
    obtain ⟨hbody, rfl⟩ := frame_eq_ok_iff.1 hframe
    have hdecode := decodeBody_encodeBody (named_of_decodeBody h) (fits_of_length_encodeBody hbody)
    rw [kind_of_decodeBody h] at hdecode
    refine ⟨hle, hdecode, _, hframe, fun rest => ?_⟩
    obtain ⟨s, hnext, -, hrest, -⟩ := next_of_holds hholds (plain_start _) rfl
    exact ⟨s, hnext, hrest⟩
  · obtain ⟨bytes, hstream, hle⟩ := h.exists_stream
    have hdata : (start (.plain bytes)).source.data = bytes ++ [] := (List.append_nil bytes).symm
    obtain ⟨t, hreads, ht, hend, -⟩ := reads_stream h.named hstream (plain_start bytes) hdata
    refine ⟨bytes, hstream, ?_, t, hreads, next_of_no_data ht hend⟩
    rwa [show (start source).offset = 0 from rfl, Nat.zero_add] at hle

/-- A body in which a length has a group more than it needs is a byte longer than what is written for its record. -/
theorem written_again_sample :
    decodeBody .newNode Sample.padded.body = .ok (.newNode Sample.app) ∧
      (newNode Sample.app).encodeBody.length + 1 = Sample.padded.body.length ∧
      decodeBody .newNode (newNode Sample.app).encodeBody = .ok (.newNode Sample.app) ∧
      ∃ frame, (newNode Sample.app).frame = .ok frame ∧ ∀ rest, ∃ s,
        next (start (.plain (frame.bytes ++ rest))) = .ok (some (.newNode Sample.app)) s ∧
          s.source.data = rest := by
  have h : decodeBody .newNode Sample.padded.body = .ok (.newNode Sample.app) := by rfl
  obtain ⟨-, hdecode, hframe⟩ := written_again.1 _ _ _ (by decide +kernel) h
  exact ⟨h, by decide +kernel, hdecode, hframe⟩

end Record

end ResolutionLog
