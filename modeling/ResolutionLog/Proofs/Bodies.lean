import ResolutionLog.Proofs.Delimited
import ResolutionLog.Proofs.Reading

/-! # Bodies of records

What may stand in a body. A record is encoded so that it is decoded again, and nothing but the whole of a body is
accepted in its place: with bytes behind it, or without its last ones, it is refused. So one body of a kind is
never the beginning of another one, whoever wrote them. The main statement, `Record.bodies_delimited`, is put
together from `Record.decodeBody_encodeBody`, from what `Proofs.Delimited` says of readers, and from
`Record.encodeBody_inj`, where records are told apart by their bodies even if their selectors could not be read
back. -/

namespace ResolutionLog

/-! ## Writers that can be told apart -/

/-- What a reader gives back can be told apart, whatever follows it. -/
theorem append_inj_of_take {ε α : Type} {take : List UInt8 → Except ε (α × List UInt8)} {a b : α}
    {front front' rest rest' : List UInt8} (ha : take (front ++ rest) = .ok (a, rest))
    (hb : take (front' ++ rest') = .ok (b, rest')) (h : front ++ rest = front' ++ rest') :
    a = b ∧ rest = rest' := by
  rw [h, hb] at ha
  obtain ⟨hvalue, hrest⟩ := Prod.mk.inj (Except.ok.inj ha)
  exact ⟨hvalue.symm, hrest.symm⟩

namespace Wire

/-- Two texts with the same bytes in front are the same, and so is what follows. -/
theorem putText_append_inj {s t : String} {rest rest' : List UInt8} (hs : Fits s) (ht : Fits t)
    (h : putText s ++ rest = putText t ++ rest') : s = t ∧ rest = rest' :=
  append_inj_of_take (takeText_putText_append hs rest) (takeText_putText_append ht rest') h

/-- Two texts that may be missing, with the same bytes in front, are the same, and so is what follows. -/
theorem putOption_append_inj {o p : Option String} {rest rest' : List UInt8} (ho : ∀ s ∈ o, Fits s)
    (hp : ∀ s ∈ p, Fits s) (h : putOption o ++ rest = putOption p ++ rest') : o = p ∧ rest = rest' :=
  append_inj_of_take (takeOption_putOption_append ho rest) (takeOption_putOption_append hp rest') h

end Wire

open Wire

/-- Two keys with the same bytes in front are the same, and so is what follows. -/
theorem NodeKey.put_append_inj {key other : NodeKey} {rest rest' : List UInt8} (hk : key.Fits)
    (ho : other.Fits) (h : key.put ++ rest = other.put ++ rest') : key = other ∧ rest = rest' :=
  append_inj_of_take (NodeKey.take_put_append hk rest) (NodeKey.take_put_append ho rest') h

/-- Selectors are told apart by their tags and parts, even those that are not read back. -/
theorem Selector.put_append_inj {s t : Selector} {rest rest' : List UInt8} (hs : s.Fits) (ht : t.Fits)
    (h : s.put ++ rest = t.put ++ rest') : s = t ∧ rest = rest' := by
  have htag : s.tag = t.tag := (List.cons.inj h).1
  have hparts : s.putParts ++ rest = t.putParts ++ rest' := (List.cons.inj h).2
  have hfits : ∀ {u : Selector} {text : String}, u.Fits → some text ∈ u.parts → Wire.Fits text :=
    fun hu hm => hu _ hm _ rfl
  -- the tags tell the kinds apart, and within a kind the parts are told from the front
  cases s with
  | build path =>
    cases t with
    | build path' =>
      obtain ⟨rfl, hrest⟩ :=
        putText_append_inj (hfits hs (by simp [parts])) (hfits ht (by simp [parts])) hparts
      exact ⟨rfl, hrest⟩
    | module | library => simp [tag] at htag
  | module group name version =>
    cases t with
    | module group' name' version' =>
      simp only [putParts, List.append_assoc] at hparts
      obtain ⟨hgroup, hnames⟩ :=
        putText_append_inj (hfits hs (by simp [parts])) (hfits ht (by simp [parts])) hparts
      obtain ⟨hname, hversions⟩ :=
        putText_append_inj (hfits hs (by simp [parts])) (hfits ht (by simp [parts])) hnames
      obtain ⟨hversion, hrest⟩ :=
        putText_append_inj (hfits hs (by simp [parts])) (hfits ht (by simp [parts])) hversions
      refine ⟨eq_of_tag_parts htag ?_, hrest⟩
      simp only [parts, hgroup, hname, hversion]
    | build | library => simp [tag] at htag
  | library path name variant =>
    cases t with
    | library path' name' variant' =>
      simp only [putParts, List.append_assoc] at hparts
      obtain ⟨hpath, hnames⟩ :=
        putText_append_inj (hfits hs (by simp [parts])) (hfits ht (by simp [parts])) hparts
      obtain ⟨hname, hvariants⟩ :=
        putOption_append_inj (hs name (by simp [parts])) (ht name' (by simp [parts])) hnames
      obtain ⟨hvariant, hrest⟩ :=
        putOption_append_inj (hs variant (by simp [parts])) (ht variant' (by simp [parts])) hvariants
      exact ⟨by rw [hpath, hname, hvariant], hrest⟩
    | build | module => simp [tag] at htag

/-- A record with a selector in its middle. -/
def Sample.missing : Record := .unresolved app (.library ":lib" none (some "debug")) "no such variant"

namespace Record

/-- **Records of one kind have different bodies**, whatever their selectors are. -/
theorem encodeBody_inj {r t : Record} (hr : r.Fits) (ht : t.Fits) (hkind : r.kind = t.kind)
    (h : r.encodeBody = t.encodeBody) : r = t := by
  have hkey : ∀ {key other : NodeKey}, key.Fits → other.Fits → key.put = other.put → key = other := by
    intro key other hk ho hput
    have hends : key.put ++ [] = other.put ++ [] := congrArg (· ++ []) hput
    exact (NodeKey.put_append_inj hk ho hends).1
  cases r <;> cases t <;> simp only [kind, reduceCtorEq] at hkind
  case newNode | root | firstLevel => exact congrArg _ (hkey hr ht h)
  case parentChild parent child artifacts parent' child' artifacts' =>
    obtain ⟨hparent, hchildren⟩ := NodeKey.put_append_inj hr.1 ht.1 h
    obtain ⟨hchild, hwords⟩ := NodeKey.put_append_inj hr.2 ht.2 hchildren
    -- a handle is told from the word that is read back
    have hread := takeWord_putWord_append artifacts.number.toNat_lt []
    rw [hwords, takeWord_putWord_append artifacts'.number.toNat_lt] at hread
    have hnumber : artifacts'.number = artifacts.number :=
      UInt64.toNat_inj.1 (Prod.mk.inj (Except.ok.inj hread)).1
    obtain ⟨number⟩ := artifacts
    obtain rfl : _ = number := hnumber
    rw [hparent, hchild]
  case unresolved parent requested reason parent' requested' reason' =>
    obtain ⟨hparent, hselectors⟩ := NodeKey.put_append_inj hr.1 ht.1 h
    obtain ⟨hrequested, hreasons⟩ := Selector.put_append_inj hr.2.1 ht.2.1 hselectors
    have hends : putText reason ++ [] = putText reason' ++ [] := congrArg (· ++ []) hreasons
    obtain ⟨hreason, -⟩ := putText_append_inj hr.2.2 ht.2.2 hends
    rw [hparent, hrequested, hreason]

/-! ## What a body is -/

/-- **Bodies of records**: a record with a proper selector is decoded from its body, and a body of some kind that
decodes, whoever wrote it, is refused with more behind it, for as many bytes as there are too many, and is refused
when it is cut short anywhere, since it is. So a body that decodes is not the beginning of another one of its kind,
and records of one kind have different bodies. -/
theorem bodies_delimited :
    (∀ r : Record, r.Named → r.Fits → decodeBody r.kind r.encodeBody = .ok r) ∧
    (∀ kind body record, decodeBody kind body = .ok record →
      (∀ more, more ≠ [] →
        decodeBody kind (body ++ more) = .error (.undecodable (.trailingBytes kind more.length))) ∧
      (∀ front back, body = front ++ back → back ≠ [] →
        ∃ fault, decodeBody kind front = .error (.undecodable fault) ∧ fault.isShort = true) ∧
      ∀ longer other, decodeBody kind longer = .ok other → body <+: longer → body = longer) ∧
    ∀ r t : Record, r.Fits → t.Fits → r.kind = t.kind → r.encodeBody = t.encodeBody → r = t := by
  refine ⟨fun r hn hf => decodeBody_encodeBody hn hf, fun kind body record h => ⟨?_, ?_, ?_⟩,
    fun r t hr ht hkind hbody => encodeBody_inj hr ht hkind hbody⟩
  · exact fun more hmore => decodeBody_append h hmore
  · rintro front back rfl hback
    exact decodeBody_front h hback
  · rintro longer other hlonger ⟨more, rfl⟩
    by_cases hmore : more = []
    · rw [hmore, List.append_nil]
    · rw [decodeBody_append h hmore] at hlonger
      cases hlonger

/-- A record with a selector in its middle, and a body in which a length has a group more than it needs: one byte
more is one too many, and without its last byte it is too short. -/
theorem bodies_delimited_sample :
    decodeBody .unresolved Sample.missing.encodeBody = .ok Sample.missing ∧
    decodeBody .newNode Sample.padded.body = .ok (.newNode Sample.app) ∧
    decodeBody .newNode (Sample.padded.body ++ [0]) = .error (.undecodable (.trailingBytes .newNode 1)) ∧
    ∃ fault, decodeBody .newNode Sample.padded.body.dropLast = .error (.undecodable fault) ∧
      fault.isShort = true := by
  obtain ⟨hround, hbody, -⟩ := bodies_delimited
  have h : decodeBody .newNode Sample.padded.body = .ok (.newNode Sample.app) := by rfl
  obtain ⟨hmore, hfront, -⟩ := hbody _ _ _ h
  refine ⟨hround Sample.missing (by decide +kernel) (fits_of_length_encodeBody (by decide +kernel)), h,
    hmore [0] (by decide), ?_⟩
  exact hfront _ [Sample.padded.body.getLast (by decide +kernel)] (by decide +kernel) (by decide)

end Record

end ResolutionLog
