/-! # Splitting a text

Three ways to take a text apart: at every occurrence of a character (`pieces`), at the first
occurrence of a mark (`cutFirst?`) and at the last occurrence of a character (`cutLast?`). Nothing is
lost: putting the parts together with what was cut out gives the text back. -/

namespace ResolutionLog.Text

/-! ## At every occurrence -/

/-- The pieces between the occurrences of `sep`: always one more than there are occurrences. -/
def pieces (sep : Char) : List Char → List (List Char)
  | [] => [[]]
  | c :: cs => if c = sep then [] :: pieces sep cs else (pieces sep cs).modifyHead (c :: ·)

/-- Nothing is one empty piece. -/
@[simp] theorem pieces_nil (sep : Char) : pieces sep [] = [[]] := rfl

/-- A separator in front begins a new piece. -/
theorem pieces_cons_self (sep : Char) (cs : List Char) :
    pieces sep (sep :: cs) = [] :: pieces sep cs := by simp [pieces]

/-- Another character in front belongs to the first piece. -/
theorem pieces_cons_of_ne {sep c : Char} (h : c ≠ sep) (cs : List Char) :
    pieces sep (c :: cs) = (pieces sep cs).modifyHead (c :: ·) := by simp [pieces, h]

/-- There is always a first piece. -/
theorem exists_pieces_eq_cons (sep : Char) (cs : List Char) :
    ∃ p ps, pieces sep cs = p :: ps := by
  induction cs with
  | nil => exact ⟨[], [], rfl⟩
  | cons c cs ih =>
    obtain ⟨p, ps, h⟩ := ih
    by_cases hc : c = sep
    · exact ⟨[], pieces sep cs, by simp [pieces, hc]⟩
    · exact ⟨c :: p, ps, by simp [pieces, hc, h]⟩

/-- No piece holds the separator. -/
theorem not_mem_of_mem_pieces {sep : Char} {cs p : List Char} (h : p ∈ pieces sep cs) :
    sep ∉ p := by
  induction cs generalizing p with
  | nil => simp_all
  | cons c cs ih =>
    by_cases hc : c = sep
    · subst hc
      rw [pieces_cons_self, List.mem_cons] at h
      rcases h with rfl | h
      · simp
      · exact ih h
    · obtain ⟨q, qs, hq⟩ := exists_pieces_eq_cons sep cs
      rw [pieces_cons_of_ne hc, hq, List.modifyHead_cons, List.mem_cons] at h
      rcases h with rfl | h
      · have := ih (p := q) (by simp [hq])
        simp [this, Ne.symm hc]
      · exact ih (by simp [hq, h])

/-- Joining the pieces with the separator gives the text back. -/
theorem intercalate_pieces (sep : Char) (cs : List Char) :
    [sep].intercalate (pieces sep cs) = cs := by
  induction cs with
  | nil => simp
  | cons c cs ih =>
    obtain ⟨q, qs, hq⟩ := exists_pieces_eq_cons sep cs
    by_cases hc : c = sep
    · subst hc
      rw [pieces_cons_self, hq, List.intercalate_cons_cons, ← hq, ih]
      simp
    · rw [pieces_cons_of_ne hc, hq, List.modifyHead_cons]
      rw [hq] at ih
      cases qs with
      | nil => simpa using ih
      | cons r rs => simpa [List.intercalate_cons_cons] using ih

/-- A text that avoids the separator is its own only piece. -/
theorem pieces_eq_singleton {sep : Char} {cs : List Char} (h : sep ∉ cs) :
    pieces sep cs = [cs] := by
  induction cs with
  | nil => rfl
  | cons c cs ih =>
    rw [List.mem_cons, not_or] at h
    simp [pieces, Ne.symm h.1, ih h.2]

/-- The first piece ends at the first separator. -/
theorem pieces_append_cons {sep : Char} {p : List Char} (h : sep ∉ p) (cs : List Char) :
    pieces sep (p ++ sep :: cs) = p :: pieces sep cs := by
  induction p with
  | nil => exact pieces_cons_self sep cs
  | cons c p ih =>
    rw [List.mem_cons, not_or] at h
    rw [List.cons_append, pieces_cons_of_ne (Ne.symm h.1), ih h.2, List.modifyHead_cons]

/-- Texts that avoid the separator are the pieces of what joining them gives. -/
theorem pieces_intercalate {sep : Char} {ps : List (List Char)} (hne : ps ≠ [])
    (h : ∀ p ∈ ps, sep ∉ p) : pieces sep ([sep].intercalate ps) = ps := by
  induction ps with
  | nil => exact absurd rfl hne
  | cons p ps ih =>
    cases ps with
    | nil => simpa using pieces_eq_singleton (h p (by simp))
    | cons q qs =>
      rw [List.intercalate_cons_cons, List.append_assoc, List.singleton_append,
        pieces_append_cons (h p (by simp)), ih (by simp) fun r hr => h r (by simp [hr])]

/-- A text has some pieces when it joins them and the separator is in none of them. -/
theorem pieces_eq_iff {sep : Char} {cs : List Char} {ps : List (List Char)} (hne : ps ≠ []) :
    pieces sep cs = ps ↔ cs = [sep].intercalate ps ∧ ∀ p ∈ ps, sep ∉ p := by
  constructor
  · rintro rfl
    exact ⟨(intercalate_pieces sep cs).symm, fun p hp => not_mem_of_mem_pieces hp⟩
  · rintro ⟨rfl, h⟩
    exact pieces_intercalate hne h

/-- The pieces of a text between the occurrences of `sep`. -/
def splitAtEach (sep : Char) (s : String) : List String :=
  (pieces sep s.toList).map String.ofList

/-- What is said of pieces in terms of texts. -/
theorem splitAtEach_eq_iff {sep : Char} {s : String} {parts : List String} (hne : parts ≠ []) :
    splitAtEach sep s = parts ↔
      s.toList = [sep].intercalate (parts.map String.toList) ∧ ∀ part ∈ parts, sep ∉ part.toList := by
  have hparts : splitAtEach sep s = parts ↔ pieces sep s.toList = parts.map String.toList := by
    constructor
    · rintro rfl
      simp [splitAtEach, Function.comp_def]
    · intro h
      simp [splitAtEach, h, Function.comp_def]
  rw [hparts, pieces_eq_iff (mt List.map_eq_nil_iff.1 hne), List.forall_mem_map]

/-! ## At the first and at the last occurrence -/

/-- The parts before and after the first occurrence of `mark`, or nothing when it does not occur. -/
def cutFirst? (mark : List Char) : List Char → Option (List Char × List Char)
  | [] => if mark.isEmpty then some ([], []) else none
  | c :: cs =>
    if mark <+: c :: cs then some ([], (c :: cs).drop mark.length)
    else (cutFirst? mark cs).map fun (front, back) => (c :: front, back)

/-- The two parts with the mark between them are the text. -/
theorem eq_append_of_cutFirst? {mark cs front back : List Char}
    (h : cutFirst? mark cs = some (front, back)) : cs = front ++ mark ++ back := by
  induction cs generalizing front with
  | nil =>
    cases mark with
    | nil => simp_all [cutFirst?]
    | cons m ms => simp [cutFirst?] at h
  | cons c cs ih =>
    rw [cutFirst?] at h
    split at h
    · next hp =>
      obtain ⟨t, ht⟩ := hp
      simp only [Option.some.injEq, Prod.mk.injEq] at h
      rw [← h.1, ← h.2, ← ht]
      simp
    · obtain ⟨⟨f, b⟩, hfb, heq⟩ := Option.map_eq_some_iff.1 h
      simp only [Prod.mk.injEq] at heq
      rw [← heq.1, ih (show _ = some (f, back) from heq.2 ▸ hfb)]
      simp

/-- A text with one character as its mark is cut where that character stands first. -/
theorem cutFirst?_singleton {sep : Char} {front : List Char} (h : sep ∉ front) (back : List Char) :
    cutFirst? [sep] (front ++ sep :: back) = some (front, back) := by
  induction front with
  | nil => simp [cutFirst?]
  | cons c front ih =>
    rw [List.mem_cons, not_or] at h
    simp [cutFirst?, h.1, ih h.2]

/-- A text is cut at a character when this stands between the two parts and is not in the first. -/
theorem cutFirst?_singleton_eq_some_iff {sep : Char} {cs front back : List Char} :
    cutFirst? [sep] cs = some (front, back) ↔ cs = front ++ sep :: back ∧ sep ∉ front := by
  constructor
  · intro h
    obtain rfl : cs = front ++ sep :: back := by simpa using eq_append_of_cutFirst? h
    refine ⟨rfl, fun hmem => ?_⟩
    -- the character would be found earlier
    obtain ⟨before, after, rfl, hbefore⟩ := List.eq_append_cons_of_mem hmem
    rw [List.append_assoc, List.cons_append, cutFirst?_singleton hbefore] at h
    have hlength := congrArg (fun cut => cut.map fun parts => parts.1.length) h
    simp at hlength
  · rintro ⟨rfl, h⟩
    exact cutFirst?_singleton h back

/-- A text is not cut at a character that is not in it. -/
theorem cutFirst?_singleton_eq_none_iff {sep : Char} {cs : List Char} :
    cutFirst? [sep] cs = none ↔ sep ∉ cs := by
  constructor
  · intro h hmem
    obtain ⟨front, back, rfl, hfront⟩ := List.eq_append_cons_of_mem hmem
    rw [cutFirst?_singleton hfront] at h
    cases h
  · intro h
    cases hcut : cutFirst? [sep] cs with
    | none => rfl
    | some parts =>
      obtain ⟨rfl, -⟩ := cutFirst?_singleton_eq_some_iff.1 hcut
      exact absurd (List.mem_append_right _ List.mem_cons_self) h

/-- The parts before and after the last occurrence of `sep`, or nothing when it does not occur. -/
def cutLast? (sep : Char) (cs : List Char) : Option (List Char × List Char) :=
  (cutFirst? [sep] cs.reverse).map fun (front, back) => (back.reverse, front.reverse)

/-- The parts of a text around the first occurrence of `mark`. -/
def splitAtFirst? (mark s : String) : Option (String × String) :=
  (cutFirst? mark.toList s.toList).map fun (front, back) => (String.ofList front, String.ofList back)

/-- What is said of cutting at a character in terms of texts. -/
theorem splitAtFirst?_eq_some_iff {sep : Char} {mark s front back : String} (hmark : mark.toList = [sep]) :
    splitAtFirst? mark s = some (front, back) ↔ s = front ++ mark ++ back ∧ sep ∉ front.toList := by
  have hparts : splitAtFirst? mark s = some (front, back) ↔
      cutFirst? [sep] s.toList = some (front.toList, back.toList) := by
    rw [splitAtFirst?, hmark, Option.map_eq_some_iff]
    constructor
    · rintro ⟨⟨f, b⟩, h, heq⟩
      obtain ⟨rfl, rfl⟩ := Prod.mk.inj heq
      simpa using h
    · intro h
      exact ⟨_, h, by simp⟩
  have htext : s = front ++ mark ++ back ↔ s.toList = front.toList ++ sep :: back.toList := by
    rw [← String.toList_inj, String.toList_append, String.toList_append, hmark]
    simp
  rw [hparts, cutFirst?_singleton_eq_some_iff, htext]

/-- A text is not split when the mark does not occur. -/
theorem splitAtFirst?_eq_none_iff {sep : Char} {mark s : String} (hmark : mark.toList = [sep]) :
    splitAtFirst? mark s = none ↔ sep ∉ s.toList := by
  rw [splitAtFirst?, hmark, Option.map_eq_none_iff, cutFirst?_singleton_eq_none_iff]

/-- The parts of a text around the last occurrence of `sep`. -/
def splitAtLast? (sep : Char) (s : String) : Option (String × String) :=
  (cutLast? sep s.toList).map fun (front, back) => (String.ofList front, String.ofList back)

end ResolutionLog.Text
