import ResolutionLog.Toml.Value

/-! # Quoted texts in TOML

Texts stand between double quotes, with escapes, or between single quotes, as they are; three quotes
instead of one let a text run over several lines. The readers of this module start behind the opening
quotes and give the text with the characters behind the closing ones. -/

namespace ResolutionLog.Toml

/-- Blanks within a line. -/
def isBlank (c : Char) : Bool := c = ' ' || c = '\t'

/-- Whether a character may stand in a text or comment: all but control characters may, and a tab. -/
def isTextChar (c : Char) : Bool := c = '\t' || (0x20 ≤ c.toNat && c.toNat ≠ 0x7F)

/-! ## Escapes -/

/-- The value of a hexadecimal digit. -/
def hexDigit? (c : Char) : Option Nat :=
  if '0' ≤ c ∧ c ≤ '9' then some (c.toNat - '0'.toNat)
  else if 'a' ≤ c ∧ c ≤ 'f' then some (c.toNat - 'a'.toNat + 10)
  else if 'A' ≤ c ∧ c ≤ 'F' then some (c.toNat - 'A'.toNat + 10)
  else none

/-- The number that digits of a base write, if they all are digits of it. -/
def number? (base : Nat) (digits : List Char) : Option Nat :=
  digits.foldlM (fun n c => do
    let d ← hexDigit? c
    if d < base then some (n * base + d) else none) 0

/-- The character whose code point is written in hexadecimal digits. -/
def codePoint? (digits : List Char) : Option Char := do
  let n ← number? 16 digits
  if n.isValidChar then some (Char.ofNat n) else none

/-- The character that an escape stands for, with what follows the escape, which is less than what
follows the backslash. -/
def escape? : (cs : List Char) → Option (Char × { rest : List Char // rest.length < cs.length })
  | 'b' :: rest => some ('\x08', ⟨rest, Nat.lt_succ_self _⟩)
  | 't' :: rest => some ('\t', ⟨rest, Nat.lt_succ_self _⟩)
  | 'n' :: rest => some ('\n', ⟨rest, Nat.lt_succ_self _⟩)
  | 'f' :: rest => some ('\x0c', ⟨rest, Nat.lt_succ_self _⟩)
  | 'r' :: rest => some ('\r', ⟨rest, Nat.lt_succ_self _⟩)
  | 'e' :: rest => some ('\x1b', ⟨rest, Nat.lt_succ_self _⟩)
  | '"' :: rest => some ('"', ⟨rest, Nat.lt_succ_self _⟩)
  | '\\' :: rest => some ('\\', ⟨rest, Nat.lt_succ_self _⟩)
  | 'x' :: a :: b :: rest =>
    (codePoint? [a, b]).map (·, ⟨rest, Nat.lt_add_of_pos_right (Nat.succ_pos 2)⟩)
  | 'u' :: a :: b :: c :: d :: rest =>
    (codePoint? [a, b, c, d]).map (·, ⟨rest, Nat.lt_add_of_pos_right (Nat.succ_pos 4)⟩)
  | 'U' :: a :: b :: c :: d :: e :: f :: g :: h :: rest =>
    (codePoint? [a, b, c, d, e, f, g, h]).map (·, ⟨rest, Nat.lt_add_of_pos_right (Nat.succ_pos 8)⟩)
  | _ => none

/-! ## Texts with escapes -/

/-- A text that has been read, from its characters in reverse, with what follows it. -/
def finish (reversed rest : List Char) : Except Fault (String × List Char) :=
  .ok (String.ofList reversed.reverse, rest)

/-- A text up to a double quote on the same line. `read` holds what was read, in reverse. -/
def basicText (cs : List Char) (read : List Char) : Except Fault (String × List Char) :=
  match cs with
  | '"' :: rest => finish read rest
  | '\\' :: rest =>
    match escape? rest with
    | some (c, ⟨rest, _⟩) => basicText rest (c :: read)
    | none => .error .badEscape
  | c :: rest => if isTextChar c then basicText rest (c :: read) else .error .badText
  | [] => .error .badText
termination_by cs.length
decreasing_by all_goals (simp only [List.length_cons]; omega)

/-- What is left after blanks and line ends. -/
def skipSpace : (cs : List Char) → { rest : List Char // rest.length ≤ cs.length }
  | [] => ⟨[], by simp⟩
  | '\r' :: '\n' :: rest =>
    let ⟨rest, h⟩ := skipSpace rest
    ⟨rest, by simp only [List.length_cons]; omega⟩
  | c :: rest =>
    if isBlank c || c = '\n' then
      let ⟨rest, h⟩ := skipSpace rest
      ⟨rest, by simp only [List.length_cons]; omega⟩
    else ⟨c :: rest, by simp⟩

/-- Whether nothing but blanks is left on a line that ends. -/
def endsLine (cs : List Char) : Bool :=
  match cs.dropWhile isBlank with
  | '\n' :: _ | '\r' :: '\n' :: _ => true
  | _ => false

/-- A text over several lines, up to three double quotes; one or two more before those belong to it. A
backslash at the end of a line leaves out all space up to the next character. -/
def multilineText (cs : List Char) (read : List Char) : Except Fault (String × List Char) :=
  match cs with
  | '"' :: '"' :: '"' :: '"' :: '"' :: rest => finish ('"' :: '"' :: read) rest
  | '"' :: '"' :: '"' :: '"' :: rest => finish ('"' :: read) rest
  | '"' :: '"' :: '"' :: rest => finish read rest
  | '\\' :: rest =>
    if endsLine rest then
      let ⟨rest, _⟩ := skipSpace rest
      multilineText rest read
    else
      match escape? rest with
      | some (c, ⟨rest, _⟩) => multilineText rest (c :: read)
      | none => .error .badEscape
  | '\r' :: '\n' :: rest => multilineText rest ('\n' :: '\r' :: read)
  | c :: rest =>
    if isTextChar c || c = '\n' then multilineText rest (c :: read) else .error .badText
  | [] => .error .badText
termination_by cs.length
decreasing_by all_goals (simp only [List.length_cons]; omega)

/-! ## Texts without escapes -/

/-- A text up to a single quote on the same line. -/
def literalText : List Char → List Char → Except Fault (String × List Char)
  | '\'' :: rest, read => finish read rest
  | c :: rest, read => if isTextChar c then literalText rest (c :: read) else .error .badText
  | [], _ => .error .badText

/-- A text over several lines, up to three single quotes; one or two more before those belong to it. -/
def multilineLiteral : List Char → List Char → Except Fault (String × List Char)
  | '\'' :: '\'' :: '\'' :: '\'' :: '\'' :: rest, read => finish ('\'' :: '\'' :: read) rest
  | '\'' :: '\'' :: '\'' :: '\'' :: rest, read => finish ('\'' :: read) rest
  | '\'' :: '\'' :: '\'' :: rest, read => finish read rest
  | '\r' :: '\n' :: rest, read => multilineLiteral rest ('\n' :: '\r' :: read)
  | c :: rest, read =>
    if isTextChar c || c = '\n' then multilineLiteral rest (c :: read) else .error .badText
  | [], _ => .error .badText

/-- What is left without a line end at the very start, which is no part of a text over several lines. -/
def skipLineEnd : List Char → List Char
  | '\n' :: rest => rest
  | '\r' :: '\n' :: rest => rest
  | cs => cs

end ResolutionLog.Toml
