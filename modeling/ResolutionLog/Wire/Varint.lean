import ResolutionLog.Error

/-! # Numbers in bytes

A number is written in groups of seven bits, the lowest group first; every byte but the last has its
high bit set. The writer uses as few groups as it can. The reader also takes longer forms, up to a
number of groups and a largest last byte that depend on how wide the number may be. Main statement:
`Varint.read_write`. -/

namespace ResolutionLog.Wire

/-- A number of at most `bits` bits, as it may stand in bytes. -/
structure VarintWidth where
  /-- The number of groups that the longest form has. -/
  groups : Nat
  /-- The largest byte that may stand in the last of these groups. -/
  lastMax : Nat
deriving DecidableEq, Repr

/-- Numbers of 64 bits: lengths and handles. -/
def VarintWidth.word : VarintWidth := ⟨10, 1⟩

/-- Numbers of 32 bits: the indices of variants. -/
def VarintWidth.index : VarintWidth := ⟨5, 15⟩

namespace Varint

/-- The groups of a number, lowest first, in at most the given number of bytes. -/
def write : Nat → Nat → List UInt8
  | 0, _ => []
  | groups + 1, n =>
    if n < 128 then [UInt8.ofNat n] else UInt8.ofNat (n % 128 + 128) :: write groups (n / 128)

/-- The number at the front of the bytes, with the bytes after it. -/
def read (lastMax : Nat) : Nat → List UInt8 → Except WireFault (Nat × List UInt8)
  | 0, _ => .error .badVarint
  | _ + 1, [] => .error .endOfInput
  | groups + 1, b :: rest =>
    if b.toNat < 128 then
      if groups = 0 ∧ lastMax < b.toNat then .error .badVarint else .ok (b.toNat, rest)
    else
      match read lastMax groups rest with
      | .error e => .error e
      | .ok (high, rest) => .ok (b.toNat - 128 + 128 * high, rest)

/-- What the writer puts down the reader takes up, whatever follows. -/
theorem read_write_append {lastMax groups n : Nat} (hl : lastMax < 128)
    (h : n < (lastMax + 1) * Nat.pow 128 groups) (rest : List UInt8) :
    read lastMax (groups + 1) (write (groups + 1) n ++ rest) = .ok (n, rest) := by
  induction groups generalizing n with
  | zero =>
    have h' : n < (lastMax + 1) * 1 := h
    have hn : n < 128 := by omega
    have hb : (UInt8.ofNat n).toNat = n := UInt8.toNat_ofNat_of_lt (Nat.lt_trans hn (by decide))
    simp only [write, hn, if_true, List.cons_append, List.nil_append, read, hb, true_and]
    rw [if_neg (by omega)]
  | succ groups ih =>
    -- a group is the last one if all the rest is in it
    rw [write]
    split
    · next hn =>
      have hb : (UInt8.ofNat n).toNat = n := UInt8.toNat_ofNat_of_lt (Nat.lt_trans hn (by decide))
      simp [read, hb, hn]
    · next hn =>
      have hb : (UInt8.ofNat (n % 128 + 128)).toNat = n % 128 + 128 :=
        UInt8.toNat_ofNat_of_lt (by show _ < 256; omega)
      have hd : n / 128 < (lastMax + 1) * Nat.pow 128 groups := by
        rw [Nat.div_lt_iff_lt_mul (by omega), Nat.mul_assoc]
        exact h
      rw [List.cons_append, read, hb, if_neg (by omega), ih hd]
      simp only [Except.ok.injEq, Prod.mk.injEq, and_true]
      omega

end Varint

/-- The bytes of a number of 64 bits. -/
def putWord (n : Nat) : List UInt8 := Varint.write VarintWidth.word.groups n

/-- The number of 64 bits at the front. -/
def takeWord (bytes : List UInt8) : Except WireFault (Nat × List UInt8) :=
  Varint.read VarintWidth.word.lastMax VarintWidth.word.groups bytes

/-- The bytes of the index of a variant. -/
def putIndex (n : Nat) : List UInt8 := Varint.write VarintWidth.index.groups n

/-- The index of a variant at the front. -/
def takeIndex (bytes : List UInt8) : Except WireFault (Nat × List UInt8) :=
  Varint.read VarintWidth.index.lastMax VarintWidth.index.groups bytes

/-- Words survive writing and reading. -/
theorem takeWord_putWord_append {n : Nat} (h : n < UInt64.size) (rest : List UInt8) :
    takeWord (putWord n ++ rest) = .ok (n, rest) :=
  Varint.read_write_append (by decide) h rest

/-- Indices survive writing and reading. -/
theorem takeIndex_putIndex_append {n : Nat} (h : n < UInt32.size) (rest : List UInt8) :
    takeIndex (putIndex n ++ rest) = .ok (n, rest) :=
  Varint.read_write_append (by decide) h rest

end ResolutionLog.Wire
