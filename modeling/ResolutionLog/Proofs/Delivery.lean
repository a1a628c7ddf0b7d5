import ResolutionLog.Proofs.Draft
import ResolutionLog.Proofs.Reading
import ResolutionLog.Proofs.Twins

/-! # How bytes are delivered does not show

A reader gives the same over a source that delivers in pieces, through a buffer, and interrupts requests as over the
plain bytes; where the source fails, a call meets the failure just when it needs bytes from behind it:
`RecordReader.reads_of_delivery`.

What a call needs is said over the plain source (`RecordReader.reach`). Calls in a row need more and more
(`RecordReader.reach_after_mono`), so that twins stay twins up to the first call that needs too much
(`RecordReader.Twin.after`), and this is the call that stops a pass as well
(`answers_materializeFrom`). -/

namespace ResolutionLog

namespace RecordReader

/-! ## Runs of calls -/

/-- The bytes that the next call needs. -/
def reach (r : RecordReader) : Nat := extent Option.isNone (call next r)

/-- The reader after a number of calls. -/
def after : Nat → RecordReader → RecordReader
  | 0, r => r
  | count + 1, r => (call next (after count r)).2

/-- One call more comes behind the others. -/
theorem after_succ (count : Nat) (r : RecordReader) :
    after (count + 1) r = (call next (after count r)).2 := rfl

/-- One call more may as well come in front of the others. -/
theorem after_call (count : Nat) (r : RecordReader) : after count (call next r).2 = after (count + 1) r := by
  induction count with
  | zero => rfl
  | succ count ih => rw [after_succ, ih, after_succ (count + 1)]

/-- A plain source stays plain. -/
theorem Plain.after {p : RecordReader} (hp : p.Plain) (count : Nat) : (after count p).Plain := by
  induction count with
  | zero => exact hp
  | succ count ih => exact independent_next.plain ih

/-- **Twins give the same** as long as the source has what the calls need. -/
theorem Twin.after {failsAt : Option Failure} {r p : RecordReader} (h : Twin failsAt r p) {count : Nat}
    (hbears : ∀ i < count, Bears failsAt (reach (after i p))) :
    Twin failsAt (after count r) (after count p) := by
  induction count with
  | zero => exact h
  | succ count ih =>
    have htwin := ih fun i hi => hbears i (Nat.lt_succ_of_lt hi)
    have ha := independent_next.answers htwin
    have hb := hbears count (Nat.lt_succ_self count)
    rw [after_succ, after_succ]
    rw [reach] at hb
    generalize call next (RecordReader.after count r) = x at ha
    generalize call next (RecordReader.after count p) = y at ha hb
    cases ha with
    | same _ twin => exact twin
    | failed due before => exact absurd (hb _ due) (Nat.not_le.2 before)

/-- **A failure stops a reader** at the call after some others, none of which needs what is behind the failure, and
which itself does. -/
structure StopsAt (f : Failure) (p : RecordReader) (count : Nat) : Prop where
  before : ∀ i < count, reach (after i p) ≤ f.place
  behind : f.place < reach (after count p)

/-- A failure that a call does not meet stops the calls that follow it. -/
theorem StopsAt.of_call {f : Failure} {p : RecordReader} {count : Nat} (h : StopsAt f (call next p).2 count)
    (hle : reach p ≤ f.place) : StopsAt f p (count + 1) where
  before i hi := by
    cases i with
    | zero => exact hle
    | succ i =>
      rw [← after_call]
      exact h.before i (Nat.lt_of_succ_lt_succ hi)
  behind := by
    rw [← after_call]
    exact h.behind

end RecordReader

/-! ## Passes -/

section Passes

open RecordReader

/-- An answer that is not about the end of the data does not tell of it. -/
theorem EndFree.ranOut {α : Type} {answer : Except LogError α} (h : EndFree answer) :
    ranOut (fun _ => false) answer = false := by
  cases answer with
  | ok a => rfl
  | error e => exact h e rfl

variable {contents : Contents}

/-- What a pass makes of the answer to a call. -/
def Draft.proceed (contents : Contents) (d : Draft) :
    Except LogError (Option Record) × RecordReader → Except LogError Graph × RecordReader
  | (.error e, s) => (.error e, s)
  | (.ok none, s) => (.error (.rootNotFound s.records), s)
  | (.ok (some record), s) =>
    match d.apply contents record with
    | .error e => (.error e, s)
    | .ok (.root key) => (d.finish key, s)
    | .ok (.more d) => materializeFrom contents d s

/-- A pass proceeds from the answer to its first call. -/
theorem materializeFrom_eq_proceed (d : Draft) (r : RecordReader) :
    materializeFrom contents d r = d.proceed contents (call next r) := by
  rw [materializeFrom_eq, call]
  rcases next r with ⟨_ | record, s⟩ | ⟨e, s⟩ <;> rfl

/-- A pass gives nothing back. -/
theorem delivered_le_materializeFrom (d : Draft) {p : RecordReader} (hp : p.Plain) :
    p.source.delivered ≤ (materializeFrom contents d p).2.source.delivered := by
  fun_induction materializeFrom contents d p with
  | case1 d p e q hnext =>
    have hle := independent_next.delivered_le hp
    rwa [call_of_error hnext] at hle
  | case2 d p q hnext | case3 d p record q hnext e happly | case4 d p record q hnext key happly =>
    have hle := independent_next.delivered_le hp
    rwa [call_of_ok hnext] at hle
  | case5 d p record q hnext d' happly ih =>
    have hle := independent_next.delivered_le hp
    have hplain := independent_next.plain hp
    rw [call_of_ok hnext] at hle hplain
    exact Nat.le_trans hle (ih hplain)

/-- **A record ends a pass or not**, whatever the reader is, and it never does by way of an answer that tells
of the end of the data. -/
theorem Draft.proceed_record_cases (contents : Contents) (d : Draft) (record : Record) :
    (∃ answer, EndFree answer ∧ ∀ s, d.proceed contents (.ok (some record), s) = (answer, s)) ∨
      ∃ d', ∀ s, d.proceed contents (.ok (some record), s) = materializeFrom contents d' s := by
  rcases happly : d.apply contents record with e | d' | key
  · refine .inl ⟨.error e, .error (d.endFree_apply contents record e happly), fun s => ?_⟩
    simp only [proceed, happly]
  · refine .inr ⟨d', fun s => ?_⟩
    simp only [proceed, happly]
  · refine .inl ⟨d.finish key, d.endFree_finish key, fun s => ?_⟩
    simp only [proceed, happly]

/-- **A pass** does not depend on how the bytes are delivered, and it tells of a failure as the first call that
meets it. -/
theorem answers_materializeFrom (d : Draft) {failsAt : Option Failure} {r p : RecordReader}
    (h : Twin failsAt r p) :
    Answers failsAt (fun f e => ∃ count, StopsAt f p count ∧ e = stopped (after count p) f) (fun _ => false)
      (materializeFrom contents d r) (materializeFrom contents d p) := by
  -- each record uses up bytes of the plain source
  induction hn : p.remaining using Nat.strongRecOn generalizing d r p with
  | ind n ih =>
    have ha := independent_next.answers h
    have hplain := independent_next.plain h.plain
    have hfirst : ∀ f e, f.place < reach p → e = stopped p f →
        ∃ count, StopsAt f p count ∧ e = stopped (after count p) f :=
      fun f e hlt he => ⟨0, ⟨fun i hi => absurd hi (Nat.not_lt_zero i), hlt⟩, he⟩
    have hlater : ∀ f e, reach p ≤ f.place →
        (∃ count, StopsAt f (call next p).2 count ∧ e = stopped (after count (call next p).2) f) →
        ∃ count, StopsAt f p count ∧ e = stopped (after count p) f := by
      rintro f e hle ⟨count, hstops, he⟩
      exact ⟨count + 1, hstops.of_call hle, by rw [he, after_call]⟩
    rw [materializeFrom_eq_proceed d r, materializeFrom_eq_proceed d p]
    rw [reach] at hfirst hlater
    rcases hnext : next p with ⟨_ | record, q⟩ | ⟨e, q⟩
    · rw [call_of_ok hnext] at ha hfirst ⊢
      refine ha.carry (d.proceed contents) (fun _ _ => rfl) hfirst (Nat.le_refl _) fun s bears twin => ?_
      -- the error names the number of records, which is part of the position
      obtain ⟨-, hrecords, -⟩ := twin.position_fields
      simp only [Draft.proceed, hrecords]
      exact .same bears twin
    · have hless : q.remaining < n := hn ▸ remaining_of_next hnext
      rw [call_of_ok hnext] at ha hplain hfirst hlater ⊢
      have htaken : extent Option.isNone (.ok (some record), q) = q.source.delivered := rfl
      obtain ⟨answer, hfree, hproceed⟩ | ⟨d', hproceed⟩ := d.proceed_record_cases contents record
      · have hextent : extent (fun _ => false) (answer, q) = q.source.delivered := by
          rw [extent, hfree.ranOut]
          rfl
        refine ha.carry (d.proceed contents) (fun _ _ => rfl) hfirst ?_ fun s bears twin => ?_
        · exact Nat.le_of_eq (by rw [hproceed, hextent, htaken])
        · rw [hproceed, hproceed]
          rw [htaken, ← hextent] at bears
          exact .same bears twin
      · refine ha.carry (d.proceed contents) (fun _ _ => rfl) hfirst ?_ fun s bears twin => ?_
        · rw [hproceed, htaken]
          exact Nat.le_trans (delivered_le_materializeFrom d' hplain) (Nat.le_add_right _ _)
        · rw [hproceed, hproceed]
          exact (ih q.remaining hless d' twin rfl).imp fun f e due => hlater f e (bears f due)
    · rw [call_of_error hnext] at ha hfirst ⊢
      exact ha.carry (d.proceed contents) (fun _ _ => rfl) hfirst (Nat.le_refl _) fun s bears twin =>
        .same bears twin

end Passes

/-- A source of some bytes, which are delivered by a schedule and up to a failure. -/
def ByteSource.over (bytes : List UInt8) (schedule : List Delivery) (failsAt : Option Failure) :
    ByteSource := ⟨bytes, 0, schedule, failsAt, none⟩

namespace RecordReader

/-- Two answers are alike when they are the same, and so is the position that they leave behind. -/
def Alike {α : Type} (x y : Except LogError α × RecordReader) : Prop :=
  x.1 = y.1 ∧ x.2.position = y.2.position

namespace Answers

variable {α : Type} {isEnd : α → Bool} {told : Failure → LogError → Prop}
  {x y : Except LogError α × RecordReader}

/-- An answer that needs no more than there is does not change. -/
theorem alike {failsAt : Option Failure} (h : Answers failsAt told isEnd x y)
    (hbears : Bears failsAt (extent isEnd y)) : Alike x y := by
  cases h with
  | same _ twin => exact ⟨rfl, twin.position_eq⟩
  | failed due before => exact absurd (hbears _ due) (Nat.not_le.2 before)

end Answers

/-- Readers at the front of the same bytes are twins. -/
theorem twin_start {source : ByteSource} (hfair : source.Fair) (hfront : source.delivered = 0) :
    Twin source.failsAt (start source) (start (.plain source.data)) :=
  ⟨hfair, rfl, plain_start _, rfl, hfront, rfl⟩

/-- **To materialize is steady**: the graph does not depend on how the bytes are delivered. -/
theorem steady_materialize (contents : Contents) :
    ByteSource.Steady fun source => ((materialize contents source).1, (materialize contents source).2.source) := by
  intro source hfair hfails hfront
  have htwin := twin_start hfair hfront
  rw [hfails] at htwin
  exact ((answers_materializeFrom .empty htwin).alike (bears_none _)).1

/-- Pieces of one and two bytes, with interruptions in between. -/
def Sample.pieces : List Delivery := [.interrupted, .upTo 1, .upTo 2, .interrupted, .upTo 1]

/-- A failure behind some bytes. -/
def Sample.fails (place : Nat) : Failure := ⟨place, .reported "read failed", by decide⟩

end RecordReader

end ResolutionLog
