import ResolutionLog.ByteSource

/-! # Requests to a source

A source may deliver in pieces of any size, with or without a buffer, may interrupt requests, and may fail for good
at some position. Whatever it does, a request that is not interrupted is met with bytes that come next, with none
only at the end of the data, or with the failure where this is due (`ByteSource.delivers_or_interrupts_read`); an
interruption leaves everything as it was. So requests for an exact number of bytes can end in three ways only, and
which of them it is does not depend on the pieces (`ByteSource.fills_readOnto`).

A schedule is finite, and behind it the source delivers all it is asked for. That is no restriction: some
calls make only so many requests, and of a schedule that went on forever they would use only a beginning. -/

namespace ResolutionLog

/-- A source that is to fail somewhere gives this many bytes before. -/
def Bears (failsAt : Option Failure) (count : Nat) : Prop := ∀ f, failsAt = some f → count ≤ f.place

/-- A source that gives some bytes before it fails gives fewer as well. -/
theorem Bears.mono {failsAt : Option Failure} {m n : Nat} (h : Bears failsAt n) (hle : m ≤ n) :
    Bears failsAt m := fun f hf => Nat.le_trans hle (h f hf)

/-- A source that does not fail gives as many bytes as it is asked for. -/
@[simp] theorem bears_none (count : Nat) : Bears none count := fun _ h => nomatch h

/-- What a source gives that fails is told by the place. -/
@[simp] theorem bears_some {f : Failure} {count : Nat} : Bears (some f) count ↔ count ≤ f.place := by
  constructor
  · exact fun h => h f rfl
  · rintro h _ ⟨⟩
    exact h

namespace ByteSource

/-! ## Moving on -/

/-- A source is fair when it may deliver something with every request that it does not interrupt, has not come past
the position where it fails, and holds nothing in its buffer but what comes next. -/
structure Fair (s : ByteSource) : Prop where
  limit_pos : ∀ limit, .upTo limit ∈ s.schedule → 0 < limit
  bears_taken : Bears s.failsAt (s.delivered + s.held?.getD 0)
  held_le : s.held?.getD 0 ≤ s.data.length

/-- A plain source is fair. -/
theorem IsPlain.fair {s : ByteSource} (h : s.IsPlain) : s.Fair where
  limit_pos := by
    rw [h.schedule_eq]
    exact fun _ hm => nomatch hm
  bears_taken := h.failsAt_eq ▸ bears_none _
  held_le := by
    rw [h.held?_eq]
    exact Nat.zero_le _

/-- A fair source has not come past its failure. -/
theorem Fair.bears_delivered {s : ByteSource} (h : s.Fair) : Bears s.failsAt s.delivered :=
  h.bears_taken.mono (Nat.le_add_right _ _)

/-- A source has moved on by some bytes, in whatever pieces they were delivered. -/
structure Moves (s t : ByteSource) (count : Nat) : Prop where
  data_eq : t.data = s.data.drop count
  delivered_eq : t.delivered = s.delivered + count
  failsAt_eq : t.failsAt = s.failsAt
  schedule_suffix : t.schedule <:+ s.schedule
  unbuffered : s.held? = none → t.held? = none
  fair : t.Fair

/-- Moving on twice is moving on. -/
theorem Moves.trans {s t u : ByteSource} {m n : Nat} (h : Moves s t m) (h' : Moves t u n) :
    Moves s u (m + n) where
  data_eq := by rw [h'.data_eq, h.data_eq, List.drop_drop]
  delivered_eq := by rw [h'.delivered_eq, h.delivered_eq, Nat.add_assoc]
  failsAt_eq := h'.failsAt_eq.trans h.failsAt_eq
  schedule_suffix := h'.schedule_suffix.trans h.schedule_suffix
  unbuffered hs := h'.unbuffered (h.unbuffered hs)
  fair := h'.fair

/-- A source has moved on fairly if it has taken nothing from behind its failure or its data. -/
theorem Fair.moves {s t : ByteSource} (h : s.Fair) {n : Nat} (hdata : t.data = s.data.drop n)
    (hdelivered : t.delivered = s.delivered + n) (hfails : t.failsAt = s.failsAt)
    (hschedule : t.schedule <:+ s.schedule) (hbuffer : s.held? = none → t.held? = none)
    (hbears : Bears s.failsAt (s.delivered + (n + t.held?.getD 0)))
    (hheld : n + t.held?.getD 0 ≤ s.data.length) : s.Moves t n := by
  refine ⟨hdata, hdelivered, hfails, hschedule, hbuffer, ?_, ?_, ?_⟩
  · exact fun limit hm => h.limit_pos limit (hschedule.subset hm)
  · rw [hfails, hdelivered, Nat.add_assoc]
    exact hbears
  · rw [hdata, List.length_drop]
    omega

/-- A source moves on when it only uses up its schedule. -/
theorem Fair.moves_later {s : ByteSource} (h : s.Fair) {later : List Delivery} (hl : later <:+ s.schedule) :
    s.Moves { s with schedule := later } 0 := by
  refine h.moves rfl rfl rfl hl id ?_ ?_
  · rw [Nat.zero_add]
    exact h.bears_taken
  · rw [Nat.zero_add]
    exact h.held_le

/-! ## Single requests -/

/-- How a fair source meets a request for at most `count` bytes: with some of them, at least one unless the
data has ended, or with the failure that is due at this place. -/
inductive Delivers (s : ByteSource) (count : Nat) : Except IoFault (List UInt8) × ByteSource → Prop where
  | some {t : ByteSource} {n : Nat} (le_count : n ≤ count) (le_length : n ≤ s.data.length)
      (progress : s.data ≠ [] → 0 < n) (bears : Bears s.failsAt (s.delivered + max n 1))
      (moves : s.Moves t n) : Delivers s count (.ok (s.data.take n), t)
  | failed {t : ByteSource} {f : Failure} (due : s.failsAt = .some f) (place_eq : f.place = s.delivered) :
    Delivers s count (.error f.fault, t)

/-- A request is interrupted, and nothing has happened otherwise. -/
def Interrupts (s : ByteSource) {α : Type} (x : Except IoFault α × ByteSource) : Prop :=
  ∃ t, x = (.error .interruption, t) ∧ s.Moves t 0

/-- How a source meets a request after it has only used up some of its schedule, and perhaps for a smaller
request. -/
theorem Delivers.of_moves {s t : ByteSource} {count n : Nat} {x : Except IoFault (List UInt8) × ByteSource}
    (h : t.Delivers n x) (hmoves : s.Moves t 0) (hn : n ≤ count) : s.Delivers count x := by
  have hdata : t.data = s.data := hmoves.data_eq.trans List.drop_zero
  have hdelivered : t.delivered = s.delivered := hmoves.delivered_eq
  cases h with
  | @some u m le_count le_length progress bears moves =>
    have hmoves' := hmoves.trans moves
    rw [Nat.zero_add] at hmoves'
    rw [hdata] at le_length progress ⊢
    rw [hmoves.failsAt_eq, hdelivered] at bears
    exact .some (Nat.le_trans le_count hn) le_length progress bears hmoves'
  | failed due place_eq => exact .failed (hmoves.failsAt_eq ▸ due) (place_eq.trans hdelivered)

/-- A source with nothing in a buffer moves on by as many bytes as are there, if it may give them. -/
theorem Fair.moves_advance {s : ByteSource} (h : s.Fair) (hempty : s.held?.getD 0 = 0) {n : Nat}
    (hb : Bears s.failsAt (s.delivered + min n s.data.length)) :
    s.Moves (s.advance n) (min n s.data.length) := by
  have hdrop : s.data.drop n = s.data.drop (min n s.data.length) := by
    rcases Nat.le_total n s.data.length with hle | hle
    · rw [Nat.min_eq_left hle]
    · rw [Nat.min_eq_right hle, List.drop_length, List.drop_of_length_le hle]
  refine h.moves hdrop (congrArg _ List.length_take) rfl List.suffix_rfl id ?_ ?_
  · exact hb.mono (by rw [advance, hempty]; omega)
  · rw [advance, hempty]
    omega

/-- A source that may give some bytes delivers as many of them as are there. -/
theorem Delivers.of_bears {s : ByteSource} (h : s.Fair) (hempty : s.held?.getD 0 = 0) {n count : Nat}
    (hpos : 0 < n) (hn : n ≤ count) (hb : Bears s.failsAt (s.delivered + n)) :
    s.Delivers count (.ok (s.data.take n), s.advance n) := by
  have htake : s.data.take n = s.data.take (min n s.data.length) := by
    rw [← List.take_take, List.take_length]
  rw [htake]
  refine .some (by omega) (Nat.min_le_right _ _) (fun hd => ?_) (hb.mono (by omega))
    (h.moves_advance hempty (hb.mono (by omega)))
  have hlength := List.length_pos_iff.2 hd
  omega

/-- A request that is neither interrupted nor limited. -/
theorem delivers_deliver {s : ByteSource} (h : s.Fair) (hempty : s.held?.getD 0 = 0) {count : Nat}
    (hc : 0 < count) : s.Delivers count (s.deliver count) := by
  rw [deliver]
  cases hf : s.failsAt with
  | none =>
    have hnone : s.failed? = none := by rw [failed?, hf, Option.bind_none]
    rw [hnone, allowance, hf]
    exact .of_bears h hempty hc (Nat.le_refl _) (hf ▸ bears_none _)
  | some f =>
    have hle : s.delivered ≤ f.place := h.bears_delivered f hf
    by_cases hdue : f.place ≤ s.delivered
    · have hfailed : s.failed? = some f.fault := by simp [failed?, hf, hdue]
      rw [hfailed]
      exact .failed hf (Nat.le_antisymm hdue hle)
    · have hnone : s.failed? = none := by simp [failed?, hf, hdue]
      have hallow : s.allowance count = min count (f.place - s.delivered) := by rw [allowance, hf]
      rw [hnone, hallow]
      have hbears : Bears s.failsAt (s.delivered + min count (f.place - s.delivered)) := by
        rw [hf, bears_some]
        omega
      exact .of_bears h hempty (by omega) (Nat.min_le_left _ _) hbears

/-- A request without a buffer is met, or interrupted. -/
theorem delivers_or_interrupts_answer {s : ByteSource} (h : s.Fair) (hempty : s.held?.getD 0 = 0) {count : Nat}
    (hc : 0 < count) : s.Delivers count (s.answer count) ∨ s.Interrupts (s.answer count) := by
  rw [answer]
  split
  · exact .inl (delivers_deliver h hempty hc)
  · next later hschedule =>
    exact .inr ⟨_, rfl, h.moves_later (hschedule ▸ List.suffix_cons _ later)⟩
  · next limit later hschedule =>
    have hlimit : 0 < limit := h.limit_pos limit (hschedule ▸ List.mem_cons_self)
    have hlater := h.moves_later (hschedule ▸ List.suffix_cons _ later : later <:+ s.schedule)
    have hmin : 0 < min count limit := by omega
    exact .inl ((delivers_deliver hlater.fair hempty hmin).of_moves hlater (Nat.min_le_left _ _))

/-- A buffer that holds what comes next, and something unless the data has ended, meets a request. -/
theorem delivers_give {s t : ByteSource} (hmoves : s.Moves t 0) (hbuffer : s.held? ≠ none) {held count : Nat}
    (hc : 0 < count) (hle : held ≤ s.data.length) (progress : s.data ≠ [] → 0 < held)
    (bears : Bears s.failsAt (s.delivered + max held 1)) : s.Delivers count (t.give held count) := by
  have hdata : t.data = s.data := hmoves.data_eq.trans List.drop_zero
  have hdelivered : t.delivered = s.delivered := hmoves.delivered_eq
  have hgiven : s.Moves (t.give held count).2 (min count held) := by
    refine ⟨?_, ?_, hmoves.failsAt_eq, hmoves.schedule_suffix, fun hnone => absurd hnone hbuffer,
      hmoves.fair.limit_pos, ?_, ?_⟩
    · rw [give, advance, hdata]
    · rw [give, advance, hdata, hdelivered, List.length_take]
      simp only
      omega
    · rw [give, advance, hdata, hdelivered, List.length_take, hmoves.failsAt_eq, Option.getD_some]
      exact bears.mono (by simp only; omega)
    · rw [give, advance, hdata, List.length_drop, Option.getD_some]
      omega
  rw [give, hdata] at hgiven ⊢
  refine .some (Nat.min_le_left _ _) (by omega) (fun hd => ?_) (bears.mono (by omega)) hgiven
  have hpos := progress hd
  omega

/-- **A request is met** whatever limit is set to it and whatever a buffer makes of it, or it is interrupted. -/
theorem delivers_or_interrupts_read {s : ByteSource} (h : s.Fair) {count : Nat} (hc : 0 < count) :
    s.Delivers count (s.read count) ∨ s.Interrupts (s.read count) := by
  rw [read]
  split
  · next hnone => exact delivers_or_interrupts_answer h (by rw [hnone]; rfl) hc
  · next hheld =>
    have hempty : s.held?.getD 0 = 0 := by rw [hheld]; rfl
    split
    · exact delivers_or_interrupts_answer h hempty hc
    · -- filling asks for as many bytes as the buffer has room for
      have hfill := delivers_or_interrupts_answer h hempty (by decide : 0 < bufferSize)
      rw [fill]
      rcases hfill with hdelivers | ⟨t, hanswer, hmoves⟩
      · generalize s.answer bufferSize = x at hdelivers
        cases hdelivers with
        | some le_count le_length progress bears moves =>
          refine .inl (delivers_give (h.moves_later moves.schedule_suffix) (hheld ▸ Option.some_ne_none _) hc ?_ ?_ ?_)
          all_goals rw [List.length_take_of_le le_length]
          · exact le_length
          · exact progress
          · exact bears
        | failed due place_eq => exact .inl (.failed due place_eq)
      · rw [hanswer]
        exact .inr ⟨t, rfl, hmoves⟩
  · next held hnonzero hheld =>
    have htaken := h.bears_taken
    have hle := h.held_le
    rw [hheld, Option.getD_some] at htaken hle
    have hpos : 0 < held := Nat.pos_of_ne_zero hnonzero
    refine .inl (delivers_give (h.moves_later List.suffix_rfl) (hheld ▸ Option.some_ne_none _) hc hle (fun _ => hpos) ?_)
    rwa [Nat.max_eq_left hpos]

/-! ## Exact numbers of bytes -/

/-- How a fair source ends requests for exactly `count` bytes that come after some parts: with all of them,
at the end of the data, or with its failure, if this is due before either. -/
inductive Fills (s : ByteSource) (count : Nat) (parts : List (List UInt8)) :
    Except IoFault (List UInt8) × ByteSource → Prop where
  | full {t : ByteSource} (enough : count ≤ s.data.length)
      (bears : Bears s.failsAt (s.delivered + count)) (moves : s.Moves t count) :
    Fills s count parts (.ok (parts.reverse.flatten ++ s.data.take count), t)
  | ended {t : ByteSource} (short : s.data.length < count)
      (bears : Bears s.failsAt (s.delivered + s.data.length + 1)) (moves : s.Moves t s.data.length) :
    Fills s count parts (.error .shortOfData, t)
  | failed {t : ByteSource} {f : Failure} (due : s.failsAt = some f)
      (before : f.place < s.delivered + min count (s.data.length + 1)) :
    Fills s count parts (.error f.fault, t)

/-- What is left of a number of bytes after a piece ends as the whole of it does. -/
theorem Fills.of_rest {s t : ByteSource} {n count : Nat} {parts parts' : List (List UInt8)}
    {x : Except IoFault (List UInt8) × ByteSource} (h : t.Fills (count - n) parts' x) (moves : s.Moves t n)
    (hparts : parts'.reverse.flatten = parts.reverse.flatten ++ s.data.take n)
    (le_count : n ≤ count) (le_length : n ≤ s.data.length) : s.Fills count parts x := by
  have hlength : t.data.length = s.data.length - n := by rw [moves.data_eq, List.length_drop]
  cases h with
  | full enough bears moves' =>
    -- the piece and what comes after it are the bytes that were asked for
    have hjoined : parts'.reverse.flatten ++ t.data.take (count - n) =
        parts.reverse.flatten ++ s.data.take count := by
      rw [moves.data_eq, hparts, List.append_assoc, ← List.take_add]
      congr 2
      omega
    have hmoves := moves.trans moves'
    rw [Nat.add_sub_cancel' le_count] at hmoves
    rw [moves.failsAt_eq, moves.delivered_eq, Nat.add_assoc, Nat.add_sub_cancel' le_count] at bears
    rw [hjoined]
    exact .full (by omega) bears hmoves
  | ended short bears moves' =>
    have hmoves := moves.trans moves'
    rw [hlength, Nat.add_sub_cancel' le_length] at hmoves
    rw [moves.failsAt_eq, moves.delivered_eq, hlength, Nat.add_assoc s.delivered,
      Nat.add_sub_cancel' le_length] at bears
    exact .ended (by omega) bears hmoves
  | failed due before =>
    rw [moves.failsAt_eq] at due
    rw [moves.delivered_eq, hlength] at before
    exact .failed due (by omega)

/-- Where nothing is left, requests for more bytes end at once. -/
theorem Fills.of_empty {s t : ByteSource} {count : Nat} {parts : List (List UInt8)} (hc : 0 < count)
    (hdata : s.data = []) (bears : Bears s.failsAt (s.delivered + 1)) (moves : s.Moves t 0) :
    s.Fills count parts (.error .shortOfData, t) := by
  have hlength : s.data.length = 0 := by rw [hdata, List.length_nil]
  refine .ended (by omega) ?_ ?_
  · rw [hlength]
    exact bears
  · rw [hlength]
    exact moves

/-- **Requests for an exact number of bytes** end in one of these ways, however often they have to be made. -/
theorem fills_readOnto {s : ByteSource} (h : s.Fair) (count : Nat) (parts : List (List UInt8)) :
    s.Fills count parts (s.readOnto count parts) := by
  fun_induction readOnto s count parts with
  | case1 s parts =>
    have hmoves : s.Moves s 0 := h.moves_later List.suffix_rfl
    have hfull : s.Fills 0 parts (.ok (parts.reverse.flatten ++ s.data.take 0), s) :=
      .full (Nat.zero_le _) h.bears_delivered hmoves
    rwa [List.take_zero, List.append_nil] at hfull
  | case2 s count parts hcount content t hread hempty =>
    have hpos := Nat.pos_of_ne_zero hcount
    rcases delivers_or_interrupts_read h hpos with hd | ⟨_, hinterrupted, -⟩
    · rw [hread] at hd
      cases hd with
      | @some _ n le_count le_length progress bears moves =>
        -- only at the end of the data is nothing delivered
        rw [List.isEmpty_iff, ← List.length_eq_zero_iff, List.length_take_of_le le_length] at hempty
        subst hempty
        have hdata : s.data = [] := Decidable.byContradiction fun hne => Nat.lt_irrefl 0 (progress hne)
        exact .of_empty hpos hdata bears moves
    · rw [hread] at hinterrupted
      cases hinterrupted
  | case3 s count parts hcount content t hread hempty ih =>
    rcases delivers_or_interrupts_read h (Nat.pos_of_ne_zero hcount) with hd | ⟨_, hinterrupted, -⟩
    · rw [hread] at hd
      cases hd with
      | @some _ n le_count le_length progress bears moves =>
        have hrest := ih moves.fair
        rw [List.length_take_of_le le_length] at hrest ⊢
        refine hrest.of_rest moves ?_ le_count le_length
        rw [List.reverse_cons, List.flatten_append, List.flatten_singleton]
    · rw [hread] at hinterrupted
      cases hinterrupted
  | case4 s count parts hcount fault t hread hkind ih =>
    rcases delivers_or_interrupts_read h (Nat.pos_of_ne_zero hcount) with hd | ⟨u, hinterrupted, hmoves⟩
    · rw [hread] at hd
      cases hd with
      | @failed _ f due place_eq => exact absurd hkind f.lasting
    · rw [hread] at hinterrupted
      obtain rfl := (Prod.mk.inj hinterrupted).2
      refine (ih hmoves.fair).of_rest hmoves ?_ (Nat.zero_le _) (Nat.zero_le _)
      rw [List.take_zero, List.append_nil]
  | case5 s count parts hcount fault t hread hkind =>
    rcases delivers_or_interrupts_read h (Nat.pos_of_ne_zero hcount) with hd | ⟨u, hinterrupted, -⟩
    · rw [hread] at hd
      cases hd with
      | failed due place_eq => exact .failed due (by omega)
    · rw [hread] at hinterrupted
      obtain rfl := Except.error.inj (Prod.mk.inj hinterrupted).1
      exact absurd rfl hkind

/-- A fair source that does not fail gives an exact number of bytes if it has them, and otherwise tells that it
has not. -/
theorem readExact_of_fair {s : ByteSource} (h : s.Fair) (hf : s.failsAt = none) (count : Nat) :
    (s.readExact count).1 = if count ≤ s.data.length then .ok (s.data.take count) else .error .shortOfData := by
  have hfills : s.Fills count [] (s.readExact count) := fills_readOnto h count []
  generalize s.readExact count = x at hfills
  cases hfills with
  | full enough bears moves => rw [if_pos enough, List.reverse_nil, List.flatten_nil, List.nil_append]
  | ended short bears moves => rw [if_neg (Nat.not_le.2 short)]
  | failed due =>
    rw [hf] at due
    cases due

/-! ## Steady actions -/

/-- A source with a buffer and nothing else in its way is fair. -/
theorem fair_buffered (data : List UInt8) : (buffered data).Fair where
  limit_pos _ hm := nomatch hm
  bears_taken := bears_none _
  held_le := Nat.zero_le _

/-- **What an action gives does not depend on how the bytes are delivered** from the front of a source that does not
fail. -/
def Steady {ε α : Type} (action : ByteSource → Except ε α × ByteSource) : Prop :=
  ∀ s : ByteSource, s.Fair → s.failsAt = none → s.delivered = 0 → (action s).1 = (action (.plain s.data)).1

/-- What a steady action gives does not depend on whether there is a buffer. -/
theorem Steady.buffered_eq {ε α : Type} {action : ByteSource → Except ε α × ByteSource} (h : Steady action)
    (data : List UInt8) : (action (buffered data)).1 = (action (plain data)).1 :=
  h (buffered data) (fair_buffered data) rfl rfl

/-- To ask for an exact number of bytes is steady. -/
theorem steady_readExact (count : Nat) : Steady fun s => s.readExact count := by
  intro s h hf _
  rw [readExact_of_fair h hf, readExact_of_fair (isPlain_plain s.data).fair rfl, plain]

end ByteSource

end ResolutionLog
