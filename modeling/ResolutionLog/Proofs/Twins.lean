import ResolutionLog.Proofs.EndOfData
import ResolutionLog.Proofs.Frames
import ResolutionLog.Proofs.Requests

/-! # Twin readers

Two readers at the same place of the same data, one of them over a plain source, are *twins*
(`RecordReader.Twin`). What a step of the other one needs is said over the plain source: the bytes that the step
takes there, and one more position if it comes to the end of the data, since only a request there shows that
nothing follows (`RecordReader.extent`). Each part of a call keeps twins, or meets the failure of the source where
it reaches too far (`RecordReader.Answers`); a step of which this is true is *independent* of the delivery, and so
are two such steps in a row (`RecordReader.Independent.bind`).

What a step says of a failure differs. Where a tag is missing, the failure is passed on, but within a frame a
failure that says that the data has ended is taken for this (`RecordReader.partFault`). Main statement:
`RecordReader.independent_next`, for whole calls, with what a failure makes of them
(`RecordReader.stopped`). -/

namespace ResolutionLog

namespace RecordReader

/-! ## What a step needs -/

section Calls

variable {α β : Type}

/-- A step at a reader: its answer, and the reader after it. -/
def call (m : Step α) (r : RecordReader) : Except LogError α × RecordReader :=
  match m r with
  | .ok a s => (.ok a, s)
  | .error e s => (.error e, s)

/-- A step that succeeds answers with its result. -/
theorem call_of_ok {m : Step α} {r s : RecordReader} {a : α} (h : m r = .ok a s) :
    call m r = (.ok a, s) := by rw [call, h]

/-- A step that fails answers with its error. -/
theorem call_of_error {m : Step α} {r s : RecordReader} {e : LogError} (h : m r = .error e s) :
    call m r = (.error e, s) := by rw [call, h]

/-- A step that follows on an answer, unless this is an error. -/
def carryOn (f : α → Step β) : Except LogError α × RecordReader → Except LogError β × RecordReader
  | (.ok a, s) => call (f a) s
  | (.error e, s) => (.error e, s)

/-- Steps in a row answer one after the other. -/
theorem call_bind (m : Step α) (f : α → Step β) (r : RecordReader) :
    call (m >>= f) r = carryOn f (call m r) := by
  simp only [call, bind, EStateM.bind]
  cases m r <;> rfl

/-- Whether an answer tells that the data has ended; `isEnd` says which results do. -/
def ranOut (isEnd : α → Bool) : Except LogError α → Bool
  | .ok a => isEnd a
  | .error e => e.marksEnd

/-- The bytes that were needed for an answer over a plain source: all that were taken, and the one behind
them if it was seen to be missing. -/
def extent (isEnd : α → Bool) (x : Except LogError α × RecordReader) : Nat :=
  x.2.source.delivered + (ranOut isEnd x.1).toNat

/-! ## Twins -/

/-- Two readers at the same place of the same data. The source of the first may deliver as it pleases and
fails at the given place; that of the second is plain. -/
structure Twin (failsAt : Option Failure) (r p : RecordReader) : Prop where
  fair : r.source.Fair
  failsAt_eq : r.source.failsAt = failsAt
  plain : p.Plain
  data_eq : r.source.data = p.source.data
  delivered_eq : r.source.delivered = p.source.delivered
  position_eq : r.position = p.position

/-- A plain source gives as many bytes as it is asked for, or all that it has. -/
theorem Plain.readExact_cases {p : RecordReader} (h : p.Plain) (count : Nat) :
    (∃ t, count ≤ p.source.data.length ∧ p.source.Moves t count ∧
      p.source.readExact count = (.ok (p.source.data.take count), t)) ∨
    ∃ t, p.source.data.length < count ∧ p.source.Moves t p.source.data.length ∧
      p.source.readExact count = (.error .shortOfData, t) := by
  have hp : p.source.Fills count [] (p.source.readExact count) := ByteSource.fills_readOnto h.fair count []
  generalize p.source.readExact count = y at hp
  cases hp with
  | full enough bears moves => exact .inl ⟨_, enough, moves, rfl⟩
  | ended short bears moves => exact .inr ⟨_, short, moves, rfl⟩
  | failed due =>
    rw [h.failsAt_eq] at due
    cases due

/-- A plain reader is a twin of itself. -/
theorem Plain.twin {p : RecordReader} (h : p.Plain) : Twin none p p :=
  ⟨h.fair, h.failsAt_eq, h, rfl, rfl, rfl⟩

variable {failsAt : Option Failure} {r p : RecordReader}

/-- Twins stay twins when both sources have moved on by as many bytes. -/
theorem Twin.move (h : Twin failsAt r p) {s t : ByteSource} {count : Nat}
    (hr : r.source.Moves s count) (hp : p.source.Moves t count) :
    Twin failsAt { r with source := s } { p with source := t } where
  fair := hr.fair
  failsAt_eq := hr.failsAt_eq.trans h.failsAt_eq
  plain := ⟨List.suffix_nil.1 (h.plain.schedule_eq ▸ hp.schedule_suffix), hp.failsAt_eq.trans h.plain.failsAt_eq,
    hp.unbuffered h.plain.held?_eq⟩
  data_eq := by
    show s.data = t.data
    rw [hr.data_eq, hp.data_eq, h.data_eq]
  delivered_eq := by
    show s.delivered = t.delivered
    rw [hr.delivered_eq, hp.delivered_eq, h.delivered_eq]
  position_eq := h.position_eq

/-- Twins agree in every part of their position. -/
theorem Twin.position_fields (h : Twin failsAt r p) :
    r.offset = p.offset ∧ r.records = p.records ∧ r.last = p.last := by
  have hposition := h.position_eq
  rwa [position, position, Position.mk.injEq] at hposition

/-! ## Answers of twins -/

/-- How an answer over a source compares with the answer over its plain twin: it is the same, and twins are
left behind, or the source has failed, and then the plain answer needs more than this has; `told` says with which
errors a failure is told. -/
inductive Answers (failsAt : Option Failure) (told : Failure → LogError → Prop) (isEnd : α → Bool) :
    Except LogError α × RecordReader → Except LogError α × RecordReader → Prop where
  | same {answer : Except LogError α} {s q : RecordReader} (bears : Bears failsAt (extent isEnd (answer, q)))
      (twin : Twin failsAt s q) : Answers failsAt told isEnd (answer, s) (answer, q)
  | failed {f : Failure} {e : LogError} {s : RecordReader} {y : Except LogError α × RecordReader}
      (due : failsAt = some f) (before : f.place < extent isEnd y) (tells : told f e) :
      Answers failsAt told isEnd (.error e, s) y

/-- What is made of two answers compares in the same way, if it needs no less than they do and passes on errors. -/
theorem Answers.carry {isEnd : α → Bool} {isEnd' : β → Bool} {told told' : Failure → LogError → Prop}
    {x y : Except LogError α × RecordReader} (h : Answers failsAt told isEnd x y)
    (made : Except LogError α × RecordReader → Except LogError β × RecordReader)
    (hfailed : ∀ e s, made (.error e, s) = (.error e, s))
    (htold : ∀ f e, f.place < extent isEnd y → told f e → told' f e)
    (hle : extent isEnd y ≤ extent isEnd' (made y))
    (hsame : ∀ s, Bears failsAt (extent isEnd y) → Twin failsAt s y.2 →
      Answers failsAt told' isEnd' (made (y.1, s)) (made y)) :
    Answers failsAt told' isEnd' (made x) (made y) := by
  cases h with
  | same bears twin => exact hsame _ bears twin
  | failed due before tells =>
    rw [hfailed]
    exact .failed due (Nat.lt_of_lt_of_le before hle) (htold _ _ before tells)

/-- A failure may be told with more errors. -/
theorem Answers.imp {isEnd : α → Bool} {told told' : Failure → LogError → Prop}
    {x y : Except LogError α × RecordReader} (h : Answers failsAt told isEnd x y)
    (htold : ∀ f e, failsAt = some f → told f e → told' f e) : Answers failsAt told' isEnd x y := by
  cases h with
  | same bears twin => exact .same bears twin
  | failed due before tells => exact .failed due before (htold _ _ due tells)

/-! ## Independent steps -/

/-- A step whose answers do not depend on how the bytes are delivered; `told` says with which errors it tells of a
failure, at a plain reader. Over a plain source the step gives nothing back, and if it tells that the data has
ended, nothing is left. -/
structure Independent (told : RecordReader → Failure → LogError → Prop) (isEnd : α → Bool) (m : Step α) :
    Prop where
  answers : ∀ {failsAt r p}, Twin failsAt r p → Answers failsAt (told p) isEnd (call m r) (call m p)
  delivered_le : ∀ {p : RecordReader}, p.Plain → p.source.delivered ≤ (call m p).2.source.delivered
  ended : ∀ {p : RecordReader}, p.Plain → ranOut isEnd (call m p).1 = true →
    (call m p).2.source.data = []

namespace Independent

variable {isEnd : α → Bool} {isEnd' : β → Bool} {m : Step α} {f : α → Step β}
  {told toldFirst : RecordReader → Failure → LogError → Prop}
  {toldRest : α → RecordReader → Failure → LogError → Prop}

/-- Over a plain source the reader stays plain. -/
theorem plain (hm : Independent told isEnd m) (hp : p.Plain) : (call m p).2.Plain := by
  have h := hm.answers hp.twin
  generalize call m p = y at h
  cases h with
  | same bears twin => exact twin.plain
  | failed due => cases due

/-- A step needs at least what was there before. -/
theorem delivered_le_extent (hm : Independent told isEnd m) (hp : p.Plain) :
    p.source.delivered ≤ extent isEnd (call m p) :=
  Nat.le_trans (hm.delivered_le hp) (Nat.le_add_right _ _)

/-- **Steps in a row** do not depend on how the bytes are delivered if none of them does. Where the first
one tells that the data has ended, nothing more is read, and this is told by the result too. A failure is told as
by the step that meets it. -/
theorem bind (hm : Independent toldFirst isEnd m)
    (hf : ∀ a, isEnd a = false → Independent (toldRest a) isEnd' (f a))
    (hend : ∀ a, isEnd a = true → ∃ b, isEnd' b = true ∧ ∀ r, call (f a) r = (.ok b, r))
    (hfirst : ∀ p f e, p.Plain → f.place < extent isEnd (call m p) → toldFirst p f e → told p f e)
    (hrest : ∀ p a q f e, p.Plain → call m p = (.ok a, q) → extent isEnd (call m p) ≤ f.place →
      toldRest a q f e → told p f e) :
    Independent told isEnd' (m >>= f) where
  answers {failsAt r p} h := by
    have hplain := hm.plain h.plain
    have ha := hm.answers h
    have hfirst := fun f e => hfirst p f e h.plain
    have hrest := fun a q f e => hrest p a q f e h.plain
    rw [call_bind m f r, call_bind m f p]
    generalize call m p = y at ha hplain hfirst hrest
    obtain ⟨e | a, q⟩ := y
    · exact ha.carry (carryOn f) (fun _ _ => rfl) hfirst (Nat.le_refl _) fun s bears twin => .same bears twin
    cases hisEnd : isEnd a with
    | false =>
      refine ha.carry (carryOn f) (fun _ _ => rfl) hfirst ?_ fun s bears twin => ?_
      · rw [extent, ranOut, hisEnd]
        exact (hf a hisEnd).delivered_le_extent hplain
      · exact ((hf a hisEnd).answers twin).imp fun g e due => hrest a q g e rfl (bears g due)
    | true =>
      -- both answers tell that the data has ended
      obtain ⟨b, hb, hcall⟩ := hend a hisEnd
      have hcarry : ∀ s, carryOn f (.ok a, s) = (.ok b, s) := hcall
      have hextent : extent isEnd (.ok a, q) = extent isEnd' (.ok b, q) := by
        rw [extent, extent, ranOut, ranOut, hisEnd, hb]
      refine ha.carry (carryOn f) (fun _ _ => rfl) hfirst ?_ fun s bears twin => ?_
      · rw [hcarry]
        exact Nat.le_of_eq hextent
      · rw [hcarry, hcarry]
        exact .same (hextent ▸ bears) twin
  delivered_le {p} h := by
    have hplain := hm.plain h
    have hle := hm.delivered_le h
    rw [call_bind]
    generalize call m p = y at hplain hle
    obtain ⟨e | a, q⟩ := y
    · exact hle
    refine Nat.le_trans hle ?_
    show q.source.delivered ≤ (call (f a) q).2.source.delivered
    cases hisEnd : isEnd a with
    | false => exact (hf a hisEnd).delivered_le hplain
    | true =>
      obtain ⟨b, -, hcall⟩ := hend a hisEnd
      exact Nat.le_of_eq (by rw [hcall])
  ended {p} h := by
    have hplain := hm.plain h
    have hended := hm.ended h
    rw [call_bind]
    generalize call m p = y at hplain hended
    obtain ⟨e | a, q⟩ := y
    · exact hended
    show ranOut isEnd' (call (f a) q).1 = true → (call (f a) q).2.source.data = []
    cases hisEnd : isEnd a with
    | false => exact (hf a hisEnd).ended hplain
    | true =>
      obtain ⟨b, -, hcall⟩ := hend a hisEnd
      rw [hcall]
      exact fun _ => hended hisEnd

/-- A step that leaves the source as it is depends on the position alone, if its answer and the position
after it do. It meets no failure, whatever it would tell of one. -/
theorem of_still (answer : Position → Except LogError α) (move : Position → Position)
    (hanswer : ∀ r, (call m r).1 = answer r.position)
    (hposition : ∀ r, (call m r).2.position = move r.position)
    (hsource : ∀ r, (call m r).2.source = r.source) (hend : ∀ r, ranOut isEnd (call m r).1 = false) :
    Independent told isEnd m where
  answers {failsAt r p} h := by
    -- both calls give the answer at the position that they share
    have hx : call m r = ((call m p).1, (call m r).2) := by rw [hanswer, ← h.position_eq, ← hanswer]
    have hbears : Bears failsAt (extent isEnd ((call m p).1, (call m p).2)) := by
      rw [extent, hend, hsource, ← h.delivered_eq, ← h.failsAt_eq]
      exact h.fair.bears_delivered
    have htwin : Twin failsAt (call m r).2 (call m p).2 := by
      refine ⟨?_, ?_, ?_, ?_, ?_, ?_⟩
      · rw [hsource]
        exact h.fair
      · rw [hsource]
        exact h.failsAt_eq
      · rw [Plain, hsource]
        exact h.plain
      · rw [hsource, hsource]
        exact h.data_eq
      · rw [hsource, hsource]
        exact h.delivered_eq
      · rw [hposition, hposition, h.position_eq]
    rw [hx]
    exact .same hbears htwin
  delivered_le {p} _ := Nat.le_of_eq (congrArg _ (hsource p)).symm
  ended {p} _ h := by
    rw [hend] at h
    cases h

end Independent

end Calls

/-! ## Tags -/

/-- Over a fair source the tag of a frame is taken with the first request that is not interrupted. -/
theorem takeTag_of_fair {r : RecordReader} (h : r.source.Fair) : ∃ x, r.source.Delivers 1 x ∧
    takeTag r = match x with
      | (.ok content, s) => .ok content.head? { r with source := s }
      | (.error fault, s) => .error (.io fault) { r with source := s } := by
  fun_induction takeTag r with
  | case1 r content s hread =>
    rcases ByteSource.delivers_or_interrupts_read h Nat.one_pos with hd | ⟨_, hinterrupted, -⟩
    · exact ⟨_, hread ▸ hd, rfl⟩
    · rw [hread] at hinterrupted
      cases hinterrupted
  | case2 r fault s hread hkind ih =>
    rcases ByteSource.delivers_or_interrupts_read h Nat.one_pos with hd | ⟨t, hinterrupted, hmoves⟩
    · rw [hread] at hd
      cases hd with
      | @failed _ f due place_eq => exact absurd hkind f.lasting
    · rw [hread] at hinterrupted
      obtain rfl := (Prod.mk.inj hinterrupted).2
      -- the request is made again, of a source that has only lost the interruption
      obtain ⟨x, hx, heq⟩ := ih hmoves.fair
      exact ⟨x, hx.of_moves hmoves (Nat.le_refl _), heq⟩
  | case3 r fault s hread hkind =>
    rcases ByteSource.delivers_or_interrupts_read h Nat.one_pos with hd | ⟨t, hinterrupted, -⟩
    · exact ⟨_, hread ▸ hd, rfl⟩
    · rw [hread] at hinterrupted
      obtain rfl := Except.error.inj (Prod.mk.inj hinterrupted).1
      exact absurd rfl hkind

/-- A tag needs one byte, whether it is there or not. -/
theorem extent_takeTag {p : RecordReader} (hp : p.Plain) :
    extent Option.isNone (call takeTag p) = p.source.delivered + 1 := by
  rw [call_of_ok (takeTag_of_plain hp), extent, skip, ByteSource.advance]
  cases p.source.data <;> rfl

/-- The tag of a frame. A failure is told as it is. -/
theorem independent_takeTag : Independent (fun _ f e => e = .io f.fault) Option.isNone takeTag where
  answers {failsAt r p} h := by
    have hextent := extent_takeTag h.plain
    have hplain := call_of_ok (takeTag_of_plain h.plain)
    have hbears : Bears failsAt p.source.delivered := h.delivered_eq ▸ h.failsAt_eq ▸ h.fair.bears_delivered
    have hempty : p.source.held?.getD 0 = 0 := by rw [h.plain.held?_eq, Option.getD_none]
    have hmoves := h.plain.fair.moves_advance hempty (n := 1) (h.plain.failsAt_eq ▸ bears_none _)
    obtain ⟨x, hx, heq⟩ := takeTag_of_fair h.fair
    cases hx with
    | @some s n le_count le_length progress bears moves =>
      -- the byte is taken if it is there, which is the same for twins
      have hn : n = min 1 p.source.data.length := by
        rw [h.data_eq] at le_length progress
        cases hdata : p.source.data with
        | nil =>
          rw [hdata] at le_length
          exact Nat.eq_zero_of_le_zero le_length
        | cons byte rest =>
          have hpos := progress (hdata ▸ List.cons_ne_nil _ _)
          rw [List.length_cons]
          omega
      have htag : (r.source.data.take n).head? = p.source.data.head? := by
        rw [hn, h.data_eq]
        cases p.source.data <;> rfl
      have hmax : max n 1 = 1 := by omega
      rw [call_of_ok heq, hplain, htag]
      rw [h.failsAt_eq, h.delivered_eq, hmax, ← hextent, hplain] at bears
      exact .same bears (h.move (hn ▸ moves) hmoves)
    | failed due place_eq =>
      rw [call_of_error heq]
      refine .failed (h.failsAt_eq ▸ due) ?_ rfl
      rw [hextent, place_eq, h.delivered_eq]
      exact Nat.lt_succ_self _
  delivered_le {p} h := by
    rw [call_of_ok (takeTag_of_plain h), skip, ByteSource.advance]
    exact Nat.le_add_right _ _
  ended {p} h hended := by
    rw [call_of_ok (takeTag_of_plain h)] at hended ⊢
    have hdata : p.source.data = [] := List.head?_eq_none_iff.1 (Option.isNone_iff_eq_none.1 hended)
    rw [skip, ByteSource.advance, hdata, List.drop_nil]

/-! ## Parts of a frame -/

/-- A part of a frame. A failure is told as it is, or it is taken for the end of the data. -/
theorem independent_takePart (kind : RecordKind) (count : Nat) :
    Independent (fun p f e => e = partFault kind p.offset f.fault) (fun _ => false) (takePart kind count) where
  answers {failsAt r p} h := by
    have hr : r.source.Fills count [] (r.source.readExact count) := ByteSource.fills_readOnto h.fair count []
    have hdata : r.source.data = p.source.data := h.data_eq
    have hoffset : r.offset = p.offset := h.position_fields.1
    have hbears : ∀ {n}, Bears r.source.failsAt (r.source.delivered + n) →
        Bears failsAt (p.source.delivered + n) := by
      rw [h.failsAt_eq, h.delivered_eq]
      exact id
    rw [call, call, takePart, takePart]
    generalize r.source.readExact count = x at hr
    -- twins have the same data, so both sources have enough of it or neither has
    obtain ⟨t, enough, moves', hp⟩ | ⟨t, short', moves', hp⟩ := h.plain.readExact_cases count
    · have hextent : extent (fun _ => false)
          ((.ok (p.source.data.take count) : Except LogError (List UInt8)), { p with source := t }) =
          p.source.delivered + count := moves'.delivered_eq
      rw [hp]
      cases hr with
      | full _ bears moves =>
        rw [hdata]
        exact .same (hextent ▸ hbears bears) (h.move moves moves')
      | ended short => exact absurd (hdata ▸ short) (Nat.not_lt.2 enough)
      | failed due before =>
        rw [h.delivered_eq] at before
        exact .failed (h.failsAt_eq ▸ due) (by rw [hextent]; omega) (by rw [hoffset])
    · have hextent : extent (fun _ => false)
          ((.error (partFault kind p.offset .shortOfData) : Except LogError (List UInt8)), { p with source := t }) =
          p.source.delivered + (p.source.data.length + 1) := by
        rw [← Nat.add_assoc, ← moves'.delivered_eq]
        rfl
      rw [hp]
      cases hr with
      | full enough => exact absurd (hdata ▸ short') (Nat.not_lt.2 enough)
      | ended _ bears moves =>
        rw [hdata, Nat.add_assoc] at bears
        rw [hdata] at moves
        have hshort : partFault kind r.offset .shortOfData = partFault kind p.offset .shortOfData := by rw [hoffset]
        show Answers _ _ _ (.error (partFault kind r.offset .shortOfData), _) _
        rw [hshort]
        exact .same (hextent ▸ hbears bears) (h.move moves moves')
      | failed due before =>
        rw [h.delivered_eq, hdata] at before
        exact .failed (h.failsAt_eq ▸ due) (by rw [hextent]; omega) (by rw [hoffset])
  delivered_le {p} h := by
    rw [call, takePart]
    obtain ⟨t, -, moves, hp⟩ | ⟨t, -, moves, hp⟩ := h.readExact_cases count
    · rw [hp]
      exact moves.delivered_eq ▸ Nat.le_add_right _ _
    · rw [hp]
      exact moves.delivered_eq ▸ Nat.le_add_right _ _
  ended {p} h := by
    rw [call, takePart]
    obtain ⟨t, enough, moves, hp⟩ | ⟨t, short, moves, hp⟩ := h.readExact_cases count
    · intro hended
      rw [hp] at hended
      cases hended
    · intro _
      rw [hp]
      show t.data = []
      rw [moves.data_eq, List.drop_length]

/-- A body of the announced length. -/
def takeAnnounced (kind : RecordKind) (content : List UInt8) : Step (List UInt8) := fun r =>
  if frameLimit < numberOfBytes content then
    .error (.oversizedRecord kind r.offset (numberOfBytes content)) r
  else takePart kind (numberOfBytes content) r

/-- A body of the announced length, which is not even asked for if it is too long. -/
theorem independent_takeAnnounced (kind : RecordKind) (content : List UInt8) :
    Independent (fun p f e => e = partFault kind p.offset f.fault) (fun _ => false)
      (takeAnnounced kind content) := by
  by_cases hlong : frameLimit < numberOfBytes content
  · have heq : takeAnnounced kind content = fun r =>
        .error (.oversizedRecord kind r.offset (numberOfBytes content)) r :=
      funext fun r => if_pos hlong
    rw [heq]
    exact .of_still (fun p => .error (.oversizedRecord kind p.offset (numberOfBytes content))) id
      (fun _ => rfl) (fun _ => rfl) (fun _ => rfl) fun _ => rfl
  · have heq : takeAnnounced kind content = takePart kind (numberOfBytes content) :=
      funext fun r => if_neg hlong
    rw [heq]
    exact independent_takePart kind _

/-- Taking a part leaves the start of the frame where it was. -/
theorem offset_of_call_takePart {kind : RecordKind} {count : Nat} {p q : RecordReader} {content : List UInt8}
    (h : call (takePart kind count) p = (.ok content, q)) : q.offset = p.offset := by
  obtain ⟨_, ⟨_, hcase⟩ | ⟨_, hcase⟩⟩ := takePart_cases kind count p
  · rw [call_of_ok hcase] at h
    exact (congrArg RecordReader.offset (Prod.mk.inj h).2).symm
  · rw [call_of_error hcase] at h
    cases h

/-- The body of a frame, with its length in front. -/
theorem independent_takeBody (kind : RecordKind) :
    Independent (fun p f e => e = partFault kind p.offset f.fault) (fun _ => false) (takeBody kind) := by
  have heq : takeBody kind = takePart kind 4 >>= takeAnnounced kind := by
    funext r
    simp only [takeBody, bind, EStateM.bind]
    cases takePart kind 4 r <;> rfl
  rw [heq]
  refine (independent_takePart kind 4).bind (fun content _ => independent_takeAnnounced kind content)
    (fun _ h => absurd h Bool.false_ne_true) (fun _ _ _ _ _ => id) fun p content q f e _ hcall _ htold => ?_
  rwa [offset_of_call_takePart hcall] at htold

/-! ## Calls -/

/-- What becomes of a body. -/
def finishFrame (kind : RecordKind) (body : List UInt8) : Step (Option Record) := fun r =>
  match Record.decodeBody kind body with
  | .error e => .error e r
  | .ok record => .ok (some record) (advance kind body.length r)

/-- What becomes of a body is decided without the source. -/
theorem independent_finishFrame (kind : RecordKind) (body : List UInt8) :
    Independent (fun _ _ _ => False) Option.isNone (finishFrame kind body) := by
  unfold finishFrame
  cases h : Record.decodeBody kind body with
  | error e =>
    exact .of_still (fun _ => .error e) id (fun _ => rfl) (fun _ => rfl)
      (fun _ => rfl) fun _ => Record.endFree_decodeBody kind body e h
  | ok record =>
    exact .of_still (fun _ => .ok (some record))
      (fun p => ⟨p.offset + headerLength + body.length, p.records + 1, some kind⟩)
      (fun _ => rfl) (fun _ => rfl) (fun _ => rfl) fun _ => rfl

/-- What follows a tag, or the end of the data in its place. -/
def takeFrame : Option UInt8 → Step (Option Record)
  | none => fun r => .ok none r
  | some tag =>
    match RecordKind.ofTag? tag with
    | none => fun r => .error (.unknownRecord tag r.offset r.records r.last) r
    | some kind => takeBody kind >>= finishFrame kind

/-- What follows the tag of a kind. A failure is met within the frame. -/
theorem independent_takeFrame (tag : UInt8) :
    Independent (fun p f e => ∃ kind, RecordKind.ofTag? tag = some kind ∧ e = partFault kind p.offset f.fault)
      Option.isNone (takeFrame (some tag)) := by
  rw [takeFrame]
  cases RecordKind.ofTag? tag with
  | none =>
    exact .of_still (fun p => .error (.unknownRecord tag p.offset p.records p.last)) id
      (fun _ => rfl) (fun _ => rfl) (fun _ => rfl) fun _ => rfl
  | some kind =>
    exact (independent_takeBody kind).bind (fun body _ => independent_finishFrame kind body)
      (fun _ h => absurd h Bool.false_ne_true) (fun _ _ _ _ _ htold => ⟨kind, rfl, htold⟩)
      fun _ _ _ _ _ _ _ _ htold => htold.elim

/-- A call takes a tag and then the rest of the frame. -/
theorem next_eq_bind : next = takeTag >>= takeFrame := by
  funext r
  simp only [next, bind, EStateM.bind]
  rcases takeTag r with ⟨_ | tag, s⟩ | ⟨e, s⟩
  · rfl
  · simp only [takeFrame]
    cases RecordKind.ofTag? tag with
    | none => rfl
    | some kind =>
      simp only [bind, EStateM.bind]
      cases takeBody kind s <;> rfl
  · rfl

/-- **How the next call ends when it meets a failure**, told by the plain reader: with the failure as it is, if even
the tag is missing, and otherwise with what the failure is taken for within a frame. -/
def stopped (p : RecordReader) (f : Failure) : LogError :=
  match p.source.data.head?.bind RecordKind.ofTag? with
  | none => .io f.fault
  | some kind => if p.source.delivered < f.place then partFault kind p.offset f.fault else .io f.fault

/-- **A call for the next record** does not depend on how the bytes are delivered. -/
theorem independent_next : Independent (fun p f e => e = stopped p f) Option.isNone next := by
  have hframe : ∀ tag : Option UInt8, tag.isNone = false →
      Independent (fun p f e => ∃ kind, tag.bind RecordKind.ofTag? = some kind ∧
        e = partFault kind p.offset f.fault) Option.isNone (takeFrame tag) := by
    rintro (_ | tag) htag
    · cases htag
    · exact independent_takeFrame tag
  rw [next_eq_bind]
  refine independent_takeTag.bind hframe (fun tag htag => ?_) ?_ ?_
  · cases tag with
    | none => exact ⟨none, rfl, fun _ => rfl⟩
    | some tag => cases htag
  · -- the failure is met in front of the tag
    rintro p f e hp hbefore rfl
    rw [extent_takeTag hp] at hbefore
    unfold stopped
    split
    · rfl
    · rw [if_neg (by omega)]
  · -- the failure is met behind the tag
    rintro p tag q f e hp hcall hle ⟨kind, hkind, rfl⟩
    rw [extent_takeTag hp] at hle
    rw [call_of_ok (takeTag_of_plain hp)] at hcall
    obtain ⟨htag, rfl⟩ := Prod.mk.inj hcall
    obtain rfl := Except.ok.inj htag
    rw [stopped, hkind]
    exact (if_pos (by omega)).symm

end RecordReader

end ResolutionLog
