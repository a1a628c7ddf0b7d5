import ResolutionLog.Toml.Value

/-! # Growing tables

A document is put together from keys with values and from headers. Every name is given one value, and
every table one header; dotted keys may add to tables without a header of their own, headers to tables
within those that are there, and nothing to a table between braces or to an array between brackets. -/

namespace ResolutionLog.Toml

/-- A name within tables. -/
structure Key where
  /-- The names of the tables on the way. -/
  path : List String
  name : String
deriving DecidableEq, Repr

/-- Give a name a value in place of its old one, if it has one. -/
def put (name : String) (value : Value) : Entries → Entries
  | [] => [(name, value)]
  | (other, old) :: rest =>
    if other = name then (name, value) :: rest else (other, old) :: put name value rest

/-- A change of a table that came to be in some way. -/
abbrev TableChange := TableOrigin → Entries → Except Fault Entries

/-- Change the table at the end of a path, and make the tables on the path that are not there yet: of
dotted keys if `dotted`, else of headers. Tables that dotted keys have gone through count as theirs from
then on. Of tables that share a header the latest is meant. -/
def changeAt (dotted : Bool) (change : TableChange) : List String → TableChange
  | [], origin, t => change origin t
  | name :: path, _, t => do
    match t.lookup name with
    | none =>
      let origin := if dotted then .dotted else .path
      return put name (.table origin (← changeAt dotted change path origin [])) t
    | some (.table origin inner) =>
      if origin = .inline ∨ dotted ∧ origin = .header then throw (.closed name)
      else
        let origin := if dotted then .dotted else origin
        return put name (.table origin (← changeAt dotted change path origin inner)) t
    | some (.tables (latest :: earlier)) =>
      return put name (.tables ((← changeAt dotted change path .header latest) :: earlier)) t
    | some _ => throw (.closed name)

/-- Give a key a value within a table. A dotted key does not end in a table that has a header. -/
def assign (t : Entries) (key : Key) (value : Value) : Except Fault Entries :=
  let add : TableChange := fun origin inner =>
    if key.path ≠ [] ∧ origin = .header then .error (.closed key.name)
    else if (inner.lookup key.name).isSome then .error (.repeated key.name)
    else .ok (put key.name value inner)
  changeAt true add key.path .header t

/-- Give keys their values, one after the other. -/
def assignAll (t : Entries) (body : List (Key × Value)) : Except Fault Entries :=
  body.foldlM (fun t (key, value) => assign t key value) t

/-! ## Sections -/

/-- What stands above the keys of a section. -/
inductive Header where
  /-- Nothing: the keys are those of the document itself. -/
  | document
  /-- The header of a table. -/
  | table (key : Key)
  /-- The header of the next of several tables. -/
  | element (key : Key)
deriving DecidableEq, Repr

/-- A header with the keys and values below it. -/
structure Section where
  header : Header
  body : List (Key × Value)

/-- Add the table of a section to the table that its header names last. A table that stood in headers
of other tables only is given its own header now. -/
def addTable (name : String) (body : List (Key × Value)) : TableChange := fun _ t => do
  match t.lookup name with
  | none => return put name (.table .header (← assignAll [] body)) t
  | some (.table .path inner) => return put name (.table .header (← assignAll inner body)) t
  | some _ => throw (.repeated name)

/-- Add the table of a section to those that share its header. -/
def addElement (name : String) (body : List (Key × Value)) : TableChange := fun _ t => do
  match t.lookup name with
  | none => return put name (.tables [← assignAll [] body]) t
  | some (.tables latestFirst) =>
    return put name (.tables ((← assignAll [] body) :: latestFirst)) t
  | some _ => throw (.repeated name)

/-- Add a section to a document. -/
def addSection (document : Entries) (s : Section) : Except Fault Entries :=
  match s.header with
  | .document => assignAll document s.body
  | .table key => changeAt false (addTable key.name s.body) key.path .header document
  | .element key => changeAt false (addElement key.name s.body) key.path .header document

end ResolutionLog.Toml
