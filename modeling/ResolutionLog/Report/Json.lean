/-! # Reports as JSON

A report is printed as JSON with one value on a line: what lists and records hold stands two columns
further in, and fields stand in the order in which the record lists them. -/

namespace ResolutionLog

/-- A value of a report. -/
inductive JsonValue where
  | text (s : String)
  | number (n : Nat)
  | flag (b : Bool)
  | list (items : List JsonValue)
  | record (fields : List (String × JsonValue))
deriving Inhabited

namespace JsonValue

/-! ## Texts -/

/-- The written form of one character. -/
def escapeChar (c : Char) : List Char :=
  if c = '"' ∨ c = '\\' then ['\\', c]
  else if c = '\n' then ['\\', 'n']
  else if c = '\r' then ['\\', 'r']
  else if c = '\t' then ['\\', 't']
  else if c = '\x08' then ['\\', 'b']
  else if c = '\x0c' then ['\\', 'f']
  else if c.toNat < 0x20 then
    ['\\', 'u', '0', '0', Nat.digitChar (c.toNat / 16), Nat.digitChar (c.toNat % 16)]
  else [c]

/-- A text in double quotes, with escapes for quotes, backslashes and control characters. -/
def quote (s : String) : String := String.ofList ('"' :: s.toList.flatMap escapeChar ++ ['"'])

/-! ## Layout -/

/-- Parts with a comma after each but the last. -/
def separate : List (List String) → List String
  | [] => []
  | [part] => part
  | part :: parts => part.dropLast ++ part.getLast?.toList.map (· ++ ",") ++ separate parts

/-- Parts further in between two marks, which stand together if there are no parts. -/
def enclose (first last : String) (parts : List (List String)) : List String :=
  if parts.isEmpty then [first ++ last]
  else first :: (separate parts).map ("  " ++ ·) ++ [last]

mutual

/-- The lines of a value. -/
def lines : JsonValue → List String
  | .text s => [quote s]
  | .number n => [toString n]
  | .flag b => [toString b]
  | .list items => enclose "[" "]" (itemLines items)
  | .record fields => enclose "\x7b" "\x7d" (fieldLines fields)

/-- The lines of each item of a list. -/
def itemLines : List JsonValue → List (List String)
  | [] => []
  | item :: items => item.lines :: itemLines items

/-- The lines of each field of a record; the first of them starts with the name. -/
def fieldLines : List (String × JsonValue) → List (List String)
  | [] => []
  | (name, value) :: fields =>
    value.lines.modifyHead (s!"{quote name}: " ++ ·) :: fieldLines fields

end

/-- The printed form of a value. -/
def print (v : JsonValue) : String := "\n".intercalate v.lines

/-- A list of texts. -/
def texts (items : List String) : JsonValue := .list (items.map .text)

end JsonValue

/-- Lines as a text, each with a line end. -/
def joinLines (lines : List String) : String := String.join (lines.map (· ++ "\n"))

end ResolutionLog
