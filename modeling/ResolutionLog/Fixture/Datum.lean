import ResolutionLog.Toml.Value

/-! # Data

What a document says, in whatever way it is written: `Toml.Value.datum` is what a value of a TOML
document says. Forms are read from data. -/

namespace ResolutionLog

/-- What a document says. -/
inductive Datum where
  /-- Nothing, in so many words. -/
  | nothing
  | text (s : String)
  | integer (n : Int)
  /-- A number that is no integer, as it is shown. -/
  | decimal (shown : String)
  /-- A word that begins like a number and is none. -/
  | malformed (word : String)
  | flag (b : Bool)
  /-- Data in a row. If it is closed, none of them may be left unread. -/
  | list (closed : Bool) (items : List Datum)
  /-- Data by their names, in the order in which they are looked at. -/
  | record (entries : List (String × Datum))
deriving Inhabited

namespace Toml.Value

/-- The name under which a point in time is looked up where a record is expected. -/
def momentName : String := "$__toml_private_datetime"

/-- Entries in the order of their names. -/
def sortByName (entries : List (String × Datum)) : List (String × Datum) :=
  entries.mergeSort fun a b => a.1 ≤ b.1

mutual

/-- What a value says. Tables are looked at in the order of their names, and what follows the expected
items of an array is left unread. -/
def datum : Value → Datum
  | .text s => .text s
  | .integer n => .integer n
  | .float literal => .decimal literal
  | .malformed word => .malformed word
  | .boolean b => .flag b
  | .moment literal => .record [(momentName, .text literal)]
  | .array items => .list false (itemData items)
  | .table _ entries => .record (sortByName (entryData entries))
  | .tables latestFirst => .list false (tableData latestFirst).reverse

/-- What each item of an array says. -/
def itemData : List Value → List Datum
  | [] => []
  | item :: rest => item.datum :: itemData rest

/-- What each entry of a table says. -/
def entryData : List (String × Value) → List (String × Datum)
  | [] => []
  | (name, value) :: rest => (name, value.datum) :: entryData rest

/-- What each of several tables says. -/
def tableData : List (List (String × Value)) → List Datum
  | [] => []
  | entries :: rest => .record (sortByName (entryData entries)) :: tableData rest

end

end Toml.Value

end ResolutionLog
