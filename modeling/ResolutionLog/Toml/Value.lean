/-! # TOML values

What a TOML document says: texts, numbers, truth values and points in time, arrays of them, and tables
that give names to values. A document is a table.

A table knows how it came to be, because that decides how the rest of the document may add to it. -/

namespace ResolutionLog.Toml

/-- How a table came to be. -/
inductive TableOrigin where
  /-- It has a header of its own, or is the document itself. -/
  | header
  /-- It stands in the headers of other tables only. -/
  | path
  /-- It stands in dotted keys only. -/
  | dotted
  /-- It was written between braces, and is complete. -/
  | inline
deriving DecidableEq, Repr

/-- A value of a document. Numbers with a fraction and points in time are kept as they are written. -/
inductive Value where
  | text (s : String)
  | integer (n : Int)
  | float (literal : String)
  /-- A word that begins like an integer and is none. It is refused where it is used. -/
  | malformed (word : String)
  | boolean (b : Bool)
  | moment (literal : String)
  | array (items : List Value)
  /-- Named values. -/
  | table (origin : TableOrigin) (entries : List (String × Value))
  /-- The tables that share one header, the latest first. -/
  | tables (latestFirst : List (List (String × Value)))
deriving Inhabited

/-- Named values, in the order in which the names were first written. -/
abbrev Entries := List (String × Value)

/-! ## Faults -/

/-- Why a text is no TOML document. -/
inductive Fault where
  /-- Something else was expected. -/
  | expected (what : String)
  /-- A backslash starts no escape. -/
  | badEscape
  /-- A quoted text does not end, or holds a character that must be escaped. -/
  | badText
  /-- A word is no value. -/
  | badWord (word : String)
  /-- A name is given a second value. -/
  | repeated (name : String)
  /-- A name stands for no table that can grow. -/
  | closed (name : String)
  /-- Values lie within one another too deeply. -/
  | tooDeep
deriving DecidableEq, Repr

/-- The wording of a fault. -/
def Fault.message : Fault → String
  | .expected what => s!"expected {what}"
  | .badEscape => "a backslash starts no escape"
  | .badText => "a quoted text does not end or holds a control character"
  | .badWord word => s!"not a value: {word}"
  | .repeated name => s!"duplicate key {name}"
  | .closed name => s!"{name} cannot be extended"
  | .tooDeep => "values are nested too deeply"

end ResolutionLog.Toml
