import ResolutionLog.Fixture.Datum
import ResolutionLog.Text.Visible

/-! # Forms

A form says which fields a record has and how each is read from what a document says. A record is read
from named data, in the order in which they are looked at, or from a list with its fields in their own
order. A name that is no field is refused, and so is a record that lacks a required field. -/

namespace ResolutionLog

/-! ## Faults -/

/-- Why a document does not follow a form. -/
inductive FormFault where
  /-- A required field is missing. -/
  | missingField (name : String)
  /-- A name is no field; the known ones are listed. -/
  | unknownField (name : String) (known : List String)
  /-- A value is of another type. -/
  | wrongType (found expected : String)
  /-- A number is out of range. -/
  | wrongValue (found expected : String)
  /-- A list has too few items, or too many. -/
  | wrongLength (length : Nat) (expected : String)
deriving DecidableEq, Repr

/-- A name as it is written in messages. -/
def ticked (name : String) : String := s!"`{name}`"

/-- The wording of a list of known names. -/
def showFields : List String → String
  | [] => "there are no fields"
  | [a] => s!"expected {ticked a}"
  | [a, b] => s!"expected {ticked a} or {ticked b}"
  | names =>
    let listed := ", ".intercalate (names.map ticked)
    s!"expected one of {listed}"

/-- The wording of a fault. -/
def FormFault.message : FormFault → String
  | .missingField name => s!"missing field {ticked name}"
  | .unknownField name known => s!"unknown field {ticked name}, {showFields known}"
  | .wrongType found expected => s!"invalid type: {found}, expected {expected}"
  | .wrongValue found expected => s!"invalid value: {found}, expected {expected}"
  | .wrongLength length expected => s!"invalid length {length}, expected {expected}"

/-- How messages describe a datum. -/
def Datum.describe : Datum → String
  | .nothing => "null"
  | .text s => s!"string {Text.quoted s}"
  | .integer n => s!"integer {ticked (toString n)}"
  | .decimal shown => s!"floating point {ticked shown}"
  | .malformed word => s!"number {ticked word}"
  | .flag b => s!"boolean {ticked (toString b)}"
  | .list .. => "sequence"
  | .record _ => "map"

/-- The refusal of a datum of another type. -/
def wrongType {α : Type} (d : Datum) (expected : String) : Except FormFault α :=
  .error (.wrongType d.describe expected)

/-! ## Values of fields -/

/-- A text. -/
def readText : Datum → Except FormFault String
  | .text s => .ok s
  | d => wrongType d "a string"

/-- A text, or nothing. -/
def readText? : Datum → Except FormFault (Option String)
  | .nothing => .ok none
  | d => (readText d).map some

/-- A truth value. -/
def readFlag : Datum → Except FormFault Bool
  | .flag b => .ok b
  | d => wrongType d "a boolean"

/-- A number of bytes, which fits into 64 bits. -/
def readCount : Datum → Except FormFault Nat
  | .integer n =>
    if 0 ≤ n ∧ n < UInt64.size then .ok n.toNat
    else .error (.wrongValue (Datum.integer n).describe "u64")
  | d => wrongType d "u64"

/-- A list of data of one kind. -/
def readList {α : Type} (read : Datum → Except FormFault α) : Datum → Except FormFault (List α)
  | .list _ items => items.mapM read
  | d => wrongType d "a sequence"

/-! ## Records -/

/-- Whether a record may lack a field. -/
inductive Presence where
  /-- It may not. -/
  | required
  /-- It may, if its fields are named. -/
  | optional
  /-- It may. -/
  | defaulted
deriving DecidableEq, Repr

/-- A field of a record. -/
structure Field (σ : Type) where
  name : String
  presence : Presence
  /-- The record with this field read from a datum. -/
  fill : σ → Datum → Except FormFault σ

/-- A field whose value is read in one way and put into a record in another. -/
def Field.make {σ α : Type} (name : String) (presence : Presence)
    (read : Datum → Except FormFault α) (put : σ → α → σ) : Field σ :=
  ⟨name, presence, fun record d => (read d).map (put record)⟩

/-- The fields of a record, its name in messages, and the record before any field is read. -/
structure Form (σ : Type) where
  name : String
  blank : σ
  fields : List (Field σ)

namespace Form

variable {σ : Type}

/-- The names of the fields. -/
def names (f : Form σ) : List String := f.fields.map Field.name

/-- Read the field with a name. -/
def fillNamed (f : Form σ) (record : σ) (entry : String × Datum) : Except FormFault σ :=
  match f.fields.find? fun field => field.name = entry.1 with
  | some field => field.fill record entry.2
  | none => .error (.unknownField entry.1 f.names)

/-- Read a record from named data. -/
def readEntries (f : Form σ) (entries : List (String × Datum)) : Except FormFault σ := do
  let record ← entries.foldlM f.fillNamed f.blank
  let missing (field : Field σ) : Bool :=
    field.presence = .required && (entries.lookup field.name).isNone
  match f.fields.find? missing with
  | some field => .error (.missingField field.name)
  | none => .ok record

/-- The number of fields in words. -/
def sizeInWords (f : Form σ) : String :=
  if f.fields.length = 1 then "1 element" else s!"{f.fields.length} elements"

/-- Read a record from the values of its fields. -/
def readItems (f : Form σ) (closed : Bool) (items : List Datum) : Except FormFault σ := do
  let record ← (f.fields.zip items).foldlM (fun record (field, d) => field.fill record d) f.blank
  match (f.fields.zipIdx.drop items.length).find? fun entry => entry.1.presence ≠ .defaulted with
  | some (_, index) => .error (.wrongLength index s!"struct {f.name} with {f.sizeInWords}")
  | none =>
    if closed ∧ f.fields.length < items.length then
      .error (.wrongLength items.length "fewer elements in array")
    else .ok record

/-- Read a record. -/
def read (f : Form σ) : Datum → Except FormFault σ
  | .record entries => f.readEntries entries
  | .list closed items => f.readItems closed items
  | d => wrongType d s!"struct {f.name}"

end Form

end ResolutionLog
