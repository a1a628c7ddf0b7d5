/-! # Blank text

Which texts count as empty when they name something. A character is blank when it has the Unicode
property `White_Space`; a text is blank when all its characters are. `trim` removes blank characters
at both ends, and a text is blank exactly when nothing of it is left (`trim_eq_empty_iff`). -/

namespace ResolutionLog.Text

/-- The code points with the property `White_Space`, as ranges from the first to the last. -/
def whiteSpaceRanges : List (Nat × Nat) :=
  [(0x0009, 0x000D), (0x0020, 0x0020), (0x0085, 0x0085), (0x00A0, 0x00A0), (0x1680, 0x1680),
    (0x2000, 0x200A), (0x2028, 0x2029), (0x202F, 0x202F), (0x205F, 0x205F), (0x3000, 0x3000)]

/-- A character is white space when its code point lies in one of the ranges. -/
def isWhiteSpace (c : Char) : Bool :=
  whiteSpaceRanges.any fun range => range.1 ≤ c.toNat && c.toNat ≤ range.2

/-- A text is blank when it holds nothing but white space. -/
def isBlank (s : String) : Bool := s.toList.all isWhiteSpace

/-- The characters left after dropping white space at the front. -/
def trimFront (cs : List Char) : List Char := cs.dropWhile isWhiteSpace

/-- The characters left after dropping white space at the back. -/
def trimBack (cs : List Char) : List Char := (cs.reverse.dropWhile isWhiteSpace).reverse

/-- The characters left after dropping white space at both ends. -/
def trimmed (cs : List Char) : List Char := trimBack (trimFront cs)

/-- A text without the white space at its ends. -/
def trim (s : String) : String := String.ofList (trimmed s.toList)

/-- Nothing is left at the front exactly of white space. -/
theorem trimFront_eq_nil_iff {cs : List Char} : trimFront cs = [] ↔ cs.all isWhiteSpace = true := by
  induction cs with
  | nil => simp [trimFront]
  | cons c cs ih =>
    by_cases hc : isWhiteSpace c = true
    · rw [trimFront, List.dropWhile_cons_of_pos hc, List.all_cons, hc, Bool.true_and]
      exact ih
    · simp [trimFront, hc]

/-- Nothing is left at the back exactly of white space. -/
theorem trimBack_eq_nil_iff {cs : List Char} : trimBack cs = [] ↔ cs.all isWhiteSpace = true := by
  have h := @trimFront_eq_nil_iff cs.reverse
  rwa [List.all_reverse, ← List.reverse_eq_nil_iff] at h

/-- What is left at the front does not begin with white space. -/
theorem head_trimFront {cs : List Char} {c : Char} (h : (trimFront cs).head? = some c) :
    isWhiteSpace c = false := by
  have h' := List.head?_dropWhile_not isWhiteSpace cs
  rw [trimFront] at h
  rw [h] at h'
  simpa using h'

/-- Trimming leaves nothing exactly of the blank texts. -/
theorem trimmed_eq_nil_iff {cs : List Char} : trimmed cs = [] ↔ cs.all isWhiteSpace = true := by
  rw [trimmed, trimBack_eq_nil_iff]
  cases hf : trimFront cs with
  | nil => simpa using trimFront_eq_nil_iff.1 hf
  | cons c rest =>
    have hc : isWhiteSpace c = false := @head_trimFront cs c (by simp [hf])
    have hcs : cs.all isWhiteSpace ≠ true := fun h => by simp [trimFront_eq_nil_iff.2 h] at hf
    simp [hc, hcs]

/-- A text is blank exactly when trimming leaves nothing of it. -/
theorem trim_eq_empty_iff {s : String} : trim s = "" ↔ isBlank s = true := by
  rw [isBlank, ← trimmed_eq_nil_iff, trim]
  constructor
  · intro h
    simpa using congrArg String.toList h
  · intro h
    simp [h]

end ResolutionLog.Text
