import ResolutionLog.Toml.Scalar
import ResolutionLog.Toml.Table

/-! # Reading TOML

A document is a list of sections: headers with keys and values below them. `parse?` reads a text section
by section and puts the sections together.

Values lie within one another up to a fixed depth, and so do the names of a key. Loops over the items of
one value or the lines of a document are bounded by a number of steps, for which the length of the text
is always enough. -/

namespace ResolutionLog.Toml

/-! ## Blanks and comments -/

/-- What is left after blanks, line ends and comments; within a comment if `comment`. -/
def skipLines (comment : Bool) : List Char → Except Fault (List Char)
  | [] => .ok []
  | '\n' :: rest => skipLines false rest
  | '\r' :: '\n' :: rest => skipLines false rest
  | c :: rest =>
    if comment then
      if isTextChar c then skipLines true rest else .error (.expected "a comment")
    else if isBlank c then skipLines false rest
    else if c = '#' then skipLines true rest
    else .ok (c :: rest)

/-- What is left after blanks. -/
def skipBlanks (cs : List Char) : List Char := cs.dropWhile isBlank

/-- What follows the end of a line, before which only blanks and a comment may stand. -/
def lineEnd (cs : List Char) : Except Fault (List Char) :=
  match skipBlanks cs with
  | [] => .ok []
  | '\n' :: rest | '\r' :: '\n' :: rest => .ok rest
  | '#' :: rest => skipLines true rest
  | _ => .error (.expected "the end of the line")

/-- What follows the mark between a key and its value. -/
def takeEquals : List Char → Except Fault (List Char)
  | '=' :: rest => .ok rest
  | _ => .error (.expected "=")

/-! ## Keys -/

/-- Whether a character may stand in a name without quotes. -/
def isNameChar (c : Char) : Bool := c.isAlphanum || c = '_' || c = '-'

/-- A name, quoted or not, with what follows it. -/
def takeName : List Char → Except Fault (String × List Char)
  | '"' :: rest => basicText rest []
  | '\'' :: rest => literalText rest []
  | cs =>
    match cs.takeWhile isNameChar with
    | [] => .error (.expected "a key")
    | word => .ok (String.ofList word, cs.drop word.length)

/-- How deep values may lie within one another, and how many tables a key may name on its way. -/
def depthLimit : Nat := 80

/-- A key: names with dots between them, with what follows it and the blanks behind it. `path` holds the
names read before, in reverse. -/
def takeKey : Nat → List Char → List String → Except Fault (Key × List Char)
  | 0, _, _ => .error (.expected "a key")
  | steps + 1, cs, path => do
    let (last, rest) ← takeName (skipBlanks cs)
    match skipBlanks rest with
    | '.' :: rest => takeKey steps rest (last :: path)
    | rest =>
      if path.length < depthLimit then .ok (⟨path.reverse, last⟩, rest) else .error .tooDeep

/-! ## Values -/

/-- The characters that end a value without quotes, other than blanks and line ends. Quotes do not. -/
def marks : List Char := ['=', ',', '[', ']', '\x7b', '\x7d', '#']

/-- Whether a character may stand in a value without quotes. -/
def isWordChar (c : Char) : Bool :=
  !isBlank c && c ≠ '\n' && c ≠ '\r' && !marks.contains c

/-- Whether a character goes on with a value without quotes behind blanks. -/
def resumesWord (c : Char) : Bool := isWordChar c && c ≠ '.' && c ≠ '"' && c ≠ '\''

/-- A word with what follows it. Blanks between two parts of a word belong to it, as between a date and
a time. `read` holds what was read before and `blanks` the blanks behind that, both in reverse. -/
def takeWord : List Char → List Char → List Char → List Char × List Char
  | [], blanks, read => (read.reverse, blanks.reverse)
  | c :: rest, blanks, read =>
    if isBlank c then takeWord rest (c :: blanks) read
    else if if blanks = [] then isWordChar c else resumesWord c then
      takeWord rest [] (c :: blanks ++ read)
    else (read.reverse, blanks.reverse ++ c :: rest)

/-- The items of an array behind its opening bracket; `read` holds those read before, in reverse. -/
def takeItems (value : List Char → Except Fault (Value × List Char)) :
    Nat → List Char → List Value → Except Fault (Value × List Char)
  | 0, _, _ => .error (.expected "]")
  | steps + 1, cs, read => do
    match ← skipLines false cs with
    | ']' :: rest => .ok (.array read.reverse, rest)
    | cs =>
      let (v, rest) ← value cs
      match ← skipLines false rest with
      | ',' :: rest => takeItems value steps rest (v :: read)
      | ']' :: rest => .ok (.array (v :: read).reverse, rest)
      | _ => .error (.expected "]")

/-- The keys and values of a table behind its opening brace, with line ends and comments between any two
parts of it but the names of one key; `read` holds those read before, in reverse. -/
def takePairs (value : List Char → Except Fault (Value × List Char)) (limit : Nat) :
    Nat → List Char → List (Key × Value) → Except Fault (List (Key × Value) × List Char)
  | 0, _, _ => .error (.expected "\x7d")
  | steps + 1, cs, read => do
    match ← skipLines false cs with
    | '\x7d' :: rest => .ok (read.reverse, rest)
    | cs =>
      let (k, rest) ← takeKey limit cs []
      let rest ← takeEquals (← skipLines false rest)
      let (v, rest) ← value (← skipLines false rest)
      match ← skipLines false rest with
      | ',' :: rest => takePairs value limit steps rest ((k, v) :: read)
      | '\x7d' :: rest => .ok (((k, v) :: read).reverse, rest)
      | _ => .error (.expected "\x7d")

/-- A value with what follows it, in which values lie within one another up to a depth. -/
def takeValue (limit : Nat) (depth : Nat) (cs : List Char) : Except Fault (Value × List Char) := do
  match cs with
  | '"' :: '"' :: '"' :: rest => asText (← multilineText (skipLineEnd rest) [])
  | '"' :: rest => asText (← basicText rest [])
  | '\'' :: '\'' :: '\'' :: rest => asText (← multilineLiteral (skipLineEnd rest) [])
  | '\'' :: rest => asText (← literalText rest [])
  | '[' :: rest =>
    match depth with
    | 0 => throw .tooDeep
    | depth + 1 => takeItems (takeValue limit depth) limit rest []
  | '\x7b' :: rest =>
    match depth with
    | 0 => throw .tooDeep
    | depth + 1 =>
      let (body, rest) ← takePairs (takeValue limit depth) limit limit rest []
      return (.table .inline (← assignAll [] body), rest)
  | cs =>
    let (w, rest) := takeWord cs [] []
    match scalar? w with
    | some v => return (v, rest)
    | none => throw (.badWord (String.ofList w))
where
  /-- A text as a value. -/
  asText (read : String × List Char) : Except Fault (Value × List Char) :=
    .ok (.text read.1, read.2)

/-! ## Documents -/

/-- Sections with one more in front of them, whose keys and values are given in reverse. -/
def endSection (header : Header) (body : List (Key × Value)) (done : List Section) : List Section :=
  ⟨header, body.reverse⟩ :: done

/-- The sections of a text; `header` and `body` are those of the section that is being read, the body in
reverse, and `done` holds the sections before it, in reverse. -/
def takeSections (limit : Nat) :
    Nat → List Char → Header → List (Key × Value) → List Section → Except Fault (List Section)
  | 0, _, _, _, _ => .error (.expected "a key")
  | steps + 1, cs, header, body, done => do
    match ← skipLines false cs with
    | [] => .ok (endSection header body done).reverse
    | '[' :: '[' :: rest =>
      let (k, rest) ← takeKey limit rest []
      match rest with
      | ']' :: ']' :: rest =>
        takeSections limit steps (← lineEnd rest) (.element k) [] (endSection header body done)
      | _ => throw (.expected "]]")
    | '[' :: rest =>
      let (k, rest) ← takeKey limit rest []
      match rest with
      | ']' :: rest =>
        takeSections limit steps (← lineEnd rest) (.table k) [] (endSection header body done)
      | _ => throw (.expected "]")
    | cs =>
      let (k, rest) ← takeKey limit cs []
      let rest ← takeEquals rest
      let (v, rest) ← takeValue limit depthLimit (skipBlanks rest)
      takeSections limit steps (← lineEnd rest) header ((k, v) :: body) done

/-- The document that a text writes. A byte order mark in front of it is left out. -/
def parse (text : String) : Except Fault Value := do
  let cs := match text.toList with
    | '\ufeff' :: rest => rest
    | cs => cs
  let limit := cs.length + 1
  let sections ← takeSections limit limit cs .document [] []
  return .table .header (← sections.foldlM addSection [])

end ResolutionLog.Toml
