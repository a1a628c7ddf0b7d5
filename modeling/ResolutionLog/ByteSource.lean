import ResolutionLog.Error

/-! # Sources of bytes

A source delivers bytes on request, but on its own terms: a request may be interrupted and has to be made
again, it may be met with fewer bytes than asked for, and after some position the source may fail for good. The
*schedule* of a source says how it treats the next requests; when the schedule is used up, requests are met as
far as the data reaches. There may be a buffer in front of a source, which asks it for more than was asked of the
buffer, and gives what it holds before it asks again. `plain` is the source without any of this, and `buffered`
the one with a buffer only.

`read` is a single request. `readExact` makes requests until it has as many bytes as asked for, and makes those
again that were interrupted; if the data ends before that, this is a failure of a kind of its own. On a plain
source both give the next bytes (`read_of_plain`, `readExact_of_plain`), and `readExact` fails when there are not
enough of them (`readExact_of_plain_of_lt`). -/

namespace ResolutionLog

/-- How a source treats one request. -/
inductive Delivery where
  /-- The request is interrupted. -/
  | interrupted
  /-- At most so many bytes are delivered. -/
  | upTo (limit : Nat)
deriving DecidableEq, Repr

/-- The failure of a request that was interrupted. -/
def IoFault.interruption : IoFault := ⟨true, .interrupted, "Interrupted system call (os error 4)"⟩

/-- The failure of a request for an exact number of bytes that the data is too short for. -/
def IoFault.shortOfData : IoFault := ⟨false, .unexpectedEnd, "failed to fill whole buffer"⟩

/-- A failure for good: each request fails from some position on. -/
structure Failure where
  /-- The number of bytes that are delivered before. -/
  place : Nat
  /-- How the requests fail. -/
  fault : IoFault
  /-- They are not just interrupted. -/
  lasting : fault.kind ≠ .interrupted
deriving DecidableEq, Repr

/-- A source of bytes with its position. -/
structure ByteSource where
  /-- The bytes still to be delivered. -/
  data : List UInt8
  /-- The number of bytes delivered so far. -/
  delivered : Nat
  /-- How the next requests are treated. -/
  schedule : List Delivery
  /-- The failure in which the source ends, if it does. -/
  failsAt : Option Failure
  /-- The number of bytes that the buffer in front of the source holds, if there is a buffer. They are the first
  of those that are still to be delivered. -/
  held? : Option Nat
deriving DecidableEq, Repr

namespace ByteSource

/-- The source that delivers all it is asked for. -/
def plain (data : List UInt8) : ByteSource := ⟨data, 0, [], none, none⟩

/-- The source that delivers all it is asked for to a buffer. -/
def buffered (data : List UInt8) : ByteSource := ⟨data, 0, [], none, some 0⟩

/-! ## Single requests -/

/-- The failure of a source that has come to the position from which on it fails. -/
def failed? (s : ByteSource) : Option IoFault :=
  s.failsAt.bind fun f => if f.place ≤ s.delivered then some f.fault else none

/-- The part of `count` bytes that may be delivered before the source fails. -/
def allowance (s : ByteSource) (count : Nat) : Nat :=
  match s.failsAt with
  | none => count
  | some f => min count (f.place - s.delivered)

/-- The source after the delivery of `count` bytes, or of all that are left. -/
def advance (s : ByteSource) (count : Nat) : ByteSource :=
  { s with data := s.data.drop count, delivered := s.delivered + (s.data.take count).length }

/-- Deliver at most `count` bytes; none mean that the data has ended. -/
def deliver (s : ByteSource) (count : Nat) : Except IoFault (List UInt8) × ByteSource :=
  match s.failed? with
  | some fault => (.error fault, s)
  | none => (.ok (s.data.take (s.allowance count)), s.advance (s.allowance count))

/-- Answer a request for at most `count` bytes without a buffer. -/
def answer (s : ByteSource) (count : Nat) : Except IoFault (List UInt8) × ByteSource :=
  match s.schedule with
  | [] => s.deliver count
  | .interrupted :: later => (.error .interruption, { s with schedule := later })
  | .upTo limit :: later => deliver { s with schedule := later } (min count limit)

/-- The number of bytes that a buffer has room for. -/
def bufferSize : Nat := 8 * 1024

/-- Fill an empty buffer, and tell how many bytes it holds then. They are still to be delivered. -/
def fill (s : ByteSource) : Except IoFault Nat × ByteSource :=
  match s.answer bufferSize with
  | (.error fault, t) => (.error fault, t)
  | (.ok content, t) => (.ok content.length, { s with schedule := t.schedule })

/-- Give at most `count` bytes out of a buffer that holds `held` bytes. -/
def give (s : ByteSource) (held count : Nat) : Except IoFault (List UInt8) × ByteSource :=
  (.ok (s.data.take (min count held)), { s.advance (min count held) with held? := some (held - count) })

/-- Answer a request for at most `count` bytes. A buffer that holds nothing is filled before, unless the request is
as large as the buffer, for then it goes past it. -/
def read (s : ByteSource) (count : Nat) : Except IoFault (List UInt8) × ByteSource :=
  match s.held? with
  | none => s.answer count
  | some 0 =>
    if bufferSize ≤ count then s.answer count
    else
      match s.fill with
      | (.error fault, t) => (.error fault, t)
      | (.ok held, t) => t.give held count
  | some held => s.give held count

/-! ## Schedules -/

/-- A source does not fail for good by an interruption. -/
theorem kind_of_failed? {s : ByteSource} {fault : IoFault} (h : s.failed? = some fault) :
    fault.kind ≠ .interrupted := by
  obtain ⟨f, -, hf⟩ := Option.bind_eq_some_iff.1 h
  split at hf
  · exact Option.some.inj hf ▸ f.lasting
  · cases hf

/-- Delivering leaves the schedule as it is, and is not interrupted. -/
theorem schedule_deliver (s : ByteSource) (count : Nat) :
    (s.deliver count).2.schedule = s.schedule ∧
      ∀ fault, (s.deliver count).1 = .error fault → fault.kind ≠ .interrupted := by
  unfold deliver
  split
  · next fault h =>
    refine ⟨rfl, fun other hother => ?_⟩
    exact Except.error.inj hother ▸ kind_of_failed? h
  · exact ⟨rfl, nofun⟩

/-- A request adds nothing to the schedule, and an interruption is taken from it. -/
theorem length_schedule_answer (s : ByteSource) (count : Nat) :
    (s.answer count).2.schedule.length ≤ s.schedule.length ∧
      ∀ fault, (s.answer count).1 = .error fault → fault.kind = .interrupted →
        (s.answer count).2.schedule.length < s.schedule.length := by
  unfold answer
  split
  · obtain ⟨hsame, hnot⟩ := schedule_deliver s count
    exact ⟨Nat.le_of_eq (congrArg _ hsame), fun fault hf hkind => absurd hkind (hnot fault hf)⟩
  · next later hschedule =>
    rw [hschedule]
    exact ⟨Nat.le_succ _, fun _ _ _ => Nat.lt_succ_self _⟩
  · next limit later hschedule =>
    obtain ⟨hsame, hnot⟩ := schedule_deliver { s with schedule := later } (min count limit)
    rw [hsame, hschedule]
    exact ⟨Nat.le_succ _, fun fault hf hkind => absurd hkind (hnot fault hf)⟩

/-- Filling a buffer fails as the request for it does. -/
theorem answer_of_fill_error {s t : ByteSource} {fault : IoFault} (h : s.fill = (.error fault, t)) :
    s.answer bufferSize = (.error fault, t) := by
  unfold fill at h
  split at h
  · next hanswer =>
    obtain ⟨hfault, rfl⟩ := Prod.mk.inj h
    rw [hanswer, Except.error.inj hfault]
  · cases h

/-- A buffer that has been filled has taken nothing from what is to be delivered, and its request counts. -/
theorem fill_ok {s t : ByteSource} {held : Nat} (h : s.fill = (.ok held, t)) :
    t.data = s.data ∧ t.schedule = (s.answer bufferSize).2.schedule := by
  unfold fill at h
  split at h
  · cases h
  · next hanswer =>
    rw [hanswer, ← (Prod.mk.inj h).2]
    exact ⟨rfl, rfl⟩

/-- A request adds nothing to the schedule, and an interruption is taken from it, also if it comes through a
buffer. -/
theorem length_schedule_read (s : ByteSource) (count : Nat) :
    (s.read count).2.schedule.length ≤ s.schedule.length ∧
      ∀ fault, (s.read count).1 = .error fault → fault.kind = .interrupted →
        (s.read count).2.schedule.length < s.schedule.length := by
  unfold read
  split
  · exact length_schedule_answer s count
  · split
    · exact length_schedule_answer s count
    -- the buffer is filled with one request, and gives without any
    · have hanswer := length_schedule_answer s bufferSize
      split
      · next hfill =>
        rw [answer_of_fill_error hfill] at hanswer
        exact hanswer
      · next hfill =>
        refine ⟨?_, nofun⟩
        rw [← (fill_ok hfill).2] at hanswer
        exact hanswer.1
  · exact ⟨Nat.le_refl _, nofun⟩

/-- After an interruption there is less of the schedule. -/
theorem schedule_of_interrupted {s t : ByteSource} {count : Nat} {fault : IoFault}
    (h : s.read count = (.error fault, t)) (hkind : fault.kind = .interrupted) :
    t.schedule.length < s.schedule.length := by
  have hless := (length_schedule_read s count).2 fault
  rw [h] at hless
  exact hless rfl hkind

/-- A request leaves no more of the schedule than there was. -/
theorem schedule_of_read {s t : ByteSource} {count : Nat} {answer : Except IoFault (List UInt8)}
    (h : s.read count = (answer, t)) : t.schedule.length ≤ s.schedule.length := by
  have hle := (length_schedule_read s count).1
  rwa [h] at hle

/-! ## Exact numbers of bytes -/

/-- Make requests until `count` more bytes are there, and make those again that were interrupted; `parts` are the
bytes that came before, the latest first. -/
def readOnto (s : ByteSource) (count : Nat) (parts : List (List UInt8)) :
    Except IoFault (List UInt8) × ByteSource :=
  if count = 0 then (.ok parts.reverse.flatten, s)
  else
    match _h : s.read count with
    | (.ok content, t) =>
      if content.isEmpty then (.error .shortOfData, t)
      else t.readOnto (count - content.length) (content :: parts)
    | (.error fault, t) =>
      if fault.kind = .interrupted then t.readOnto count parts else (.error fault, t)
termination_by count + s.schedule.length
decreasing_by
  · -- the bytes that have come are asked for no more
    have hle := schedule_of_read _h
    simp only [List.isEmpty_iff, ← List.length_eq_zero_iff] at *
    omega
  · exact Nat.add_lt_add_left (schedule_of_interrupted _h ‹_›) count

/-- Make requests until `count` bytes are there. Asking for no bytes makes no request, and a request that is met at
once is the only one. -/
def readExact (s : ByteSource) (count : Nat) : Except IoFault (List UInt8) × ByteSource := s.readOnto count []

/-! ## Positions -/

/-- What has been delivered is not there any more. -/
theorem length_data_advance (s : ByteSource) (count : Nat) :
    (s.advance count).data.length + min count s.data.length = s.data.length := by
  simp only [advance, List.length_drop]
  omega

/-- What is delivered was there, and nothing else goes. -/
theorem length_data_deliver (s : ByteSource) (count : Nat) :
    (s.deliver count).2.data.length ≤ s.data.length ∧
      ∀ content, (s.deliver count).1 = .ok content →
        (s.deliver count).2.data.length + content.length = s.data.length := by
  unfold deliver
  split
  · simp
  · have h := length_data_advance s (s.allowance count)
    refine ⟨by simp only; omega, ?_⟩
    simp only [Except.ok.injEq, forall_eq', List.length_take]
    exact h

/-- What answers a request was there, and nothing else goes. -/
theorem length_data_answer (s : ByteSource) (count : Nat) :
    (s.answer count).2.data.length ≤ s.data.length ∧
      ∀ content, (s.answer count).1 = .ok content →
        (s.answer count).2.data.length + content.length = s.data.length := by
  unfold answer
  split
  · exact length_data_deliver s count
  · exact ⟨Nat.le_refl _, nofun⟩
  · next limit later _ => exact length_data_deliver { s with schedule := later } (min count limit)

/-- What a buffer gives was there, and nothing else goes. -/
theorem length_data_give (s : ByteSource) (held count : Nat) :
    (s.give held count).2.data.length ≤ s.data.length ∧
      ∀ content, (s.give held count).1 = .ok content →
        (s.give held count).2.data.length + content.length = s.data.length := by
  have h := length_data_advance s (min count held)
  refine ⟨Nat.le.intro h, fun content hcontent => ?_⟩
  rw [← Except.ok.inj hcontent, List.length_take]
  exact h

/-- A request gets bytes that were there, and nothing else goes. -/
theorem length_data_read (s : ByteSource) (count : Nat) :
    (s.read count).2.data.length ≤ s.data.length ∧
      ∀ content, (s.read count).1 = .ok content →
        (s.read count).2.data.length + content.length = s.data.length := by
  unfold read
  split
  · exact length_data_answer s count
  · split
    · exact length_data_answer s count
    · split
      · next h =>
        have hle := (length_data_answer s bufferSize).1
        rw [answer_of_fill_error h] at hle
        exact ⟨hle, nofun⟩
      · next held t h =>
        have hgive := length_data_give t held count
        rwa [(fill_ok h).1] at hgive
  · exact length_data_give s _ count

/-- Requests in a row never give bytes back. -/
theorem length_data_readOnto_le (s : ByteSource) (count : Nat) (parts : List (List UInt8)) :
    (s.readOnto count parts).2.data.length ≤ s.data.length := by
  fun_induction readOnto s count parts with
  | case1 => simp
  | case2 s count _ _ content t h | case5 s count _ _ fault t h =>
    have := (length_data_read s count).1
    rw [h] at this
    exact this
  | case3 s count _ _ content t h _ ih | case4 s count _ _ fault t h _ ih =>
    have := (length_data_read s count).1
    rw [h] at this
    exact Nat.le_trans ih this

/-- A request for an exact number of bytes never gives bytes back. -/
theorem length_data_readExact_le (s : ByteSource) (count : Nat) :
    (s.readExact count).2.data.length ≤ s.data.length :=
  length_data_readOnto_le s count []

/-! ## Plain sources -/

/-- A source delivers all it is asked for, and has no buffer. -/
structure IsPlain (s : ByteSource) : Prop where
  schedule_eq : s.schedule = []
  failsAt_eq : s.failsAt = none
  held?_eq : s.held? = none

/-- The source of some bytes is plain. -/
theorem isPlain_plain (data : List UInt8) : (plain data).IsPlain := ⟨rfl, rfl, rfl⟩

/-- A plain source stays plain. -/
theorem IsPlain.advance {s : ByteSource} (h : s.IsPlain) (count : Nat) : (s.advance count).IsPlain :=
  ⟨h.schedule_eq, h.failsAt_eq, h.held?_eq⟩

/-- A plain source gives the next bytes. -/
theorem read_of_plain {s : ByteSource} (h : s.IsPlain) (count : Nat) :
    s.read count = (.ok (s.data.take count), s.advance count) := by
  obtain ⟨data, delivered, schedule, failsAt, held?⟩ := s
  obtain ⟨rfl, rfl, rfl⟩ := h
  simp [read, answer, deliver, failed?, allowance]

/-- A plain source gives the bytes that are asked for if it has them. -/
theorem readExact_of_plain {s : ByteSource} (h : s.IsPlain) {count : Nat} (hc : count ≤ s.data.length) :
    s.readExact count = (.ok (s.data.take count), s.advance count) := by
  unfold readExact readOnto
  split
  · next h0 =>
    subst h0
    simp [advance]
  · next h0 =>
    have hl : (s.data.take count).length = count := List.length_take_of_le hc
    have hn : ¬(s.data.take count).isEmpty := by
      rw [List.isEmpty_iff, ← List.length_eq_zero_iff, hl]
      exact h0
    split
    · next content t hread =>
      rw [read_of_plain h] at hread
      obtain ⟨hcontent, rfl⟩ := Prod.mk.inj hread
      obtain rfl := Except.ok.inj hcontent
      rw [if_neg hn, hl, Nat.sub_self, readOnto, if_pos rfl, List.reverse_singleton, List.flatten_singleton]
    · next hread =>
      rw [read_of_plain h] at hread
      cases hread

/-- A plain source without data fails when it is asked for more. -/
theorem readOnto_of_no_data {s : ByteSource} (h : s.IsPlain) (hd : s.data = []) {count : Nat}
    (hc : 0 < count) (parts : List (List UInt8)) : ∃ t, s.readOnto count parts = (.error .shortOfData, t) := by
  unfold readOnto
  rw [if_neg (Nat.ne_of_gt hc)]
  split
  · next content t hread =>
    rw [read_of_plain h, hd, List.take_nil] at hread
    obtain ⟨hcontent, rfl⟩ := Prod.mk.inj hread
    rw [← Except.ok.inj hcontent]
    exact ⟨_, rfl⟩
  · next hread =>
    rw [read_of_plain h] at hread
    cases hread

/-- A plain source fails when it is asked for more bytes than it has. -/
theorem readExact_of_plain_of_lt {s : ByteSource} (h : s.IsPlain) {count : Nat} (hc : s.data.length < count) :
    ∃ t, s.readExact count = (.error .shortOfData, t) := by
  by_cases hd : s.data = []
  · exact readOnto_of_no_data h hd (Nat.zero_lt_of_lt hc) []
  · -- the first answer gives all that is there, the second one gives nothing
    have hall : s.data.take count = s.data := List.take_of_length_le (Nat.le_of_lt hc)
    unfold readExact readOnto
    rw [if_neg (Nat.ne_of_gt (Nat.zero_lt_of_lt hc))]
    split
    · next content t hread =>
      rw [read_of_plain h, hall] at hread
      obtain ⟨hcontent, rfl⟩ := Prod.mk.inj hread
      obtain rfl := Except.ok.inj hcontent
      rw [if_neg (by rwa [List.isEmpty_iff])]
      have hrest : (s.advance count).data = [] := List.drop_of_length_le (Nat.le_of_lt hc)
      exact readOnto_of_no_data (h.advance count) hrest (Nat.sub_pos_of_lt hc) _
    · next hread =>
      rw [read_of_plain h] at hread
      cases hread

end ByteSource

end ResolutionLog
