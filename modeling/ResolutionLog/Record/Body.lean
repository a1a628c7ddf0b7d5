import ResolutionLog.Component.Wire
import ResolutionLog.Record
import ResolutionLog.Selector.Wire

/-! # Bodies of records

The body of a record holds its fields one after the other; the kind of the record is not part of it.
A body must be used up: bytes after the last field are an error. Main statement:
`Record.decodeBody_encodeBody`. -/

namespace ResolutionLog

open Wire

namespace Record

/-- The body of a record. -/
def encodeBody : Record → List UInt8
  | .newNode key | .root key | .firstLevel key => key.put
  | .parentChild parent child artifacts =>
    parent.put ++ (child.put ++ putWord artifacts.number.toNat)
  | .unresolved parent requested reason => parent.put ++ (requested.put ++ putText reason)

/-- A reader of fields, with its faults told apart by the kind of the record. -/
def takeField {α : Type} (kind : RecordKind) (read : List UInt8 → Except WireFault (α × List UInt8))
    (bytes : List UInt8) : Except LogError (α × List UInt8) :=
  (read bytes).mapError fun fault => .undecodable (.recordField kind fault)

/-- The fields of a record of the given kind, with the bytes after them. -/
def takeFields (bytes : List UInt8) : RecordKind → Except LogError (Record × List UInt8)
  | .newNode => do
    let (key, rest) ← takeField .newNode NodeKey.take bytes
    return (.newNode key, rest)
  | .root => do
    let (key, rest) ← takeField .root NodeKey.take bytes
    return (.root key, rest)
  | .firstLevel => do
    let (key, rest) ← takeField .firstLevel NodeKey.take bytes
    return (.firstLevel key, rest)
  | .parentChild => do
    let (parent, rest) ← takeField .parentChild NodeKey.take bytes
    let (child, rest) ← takeField .parentChild NodeKey.take rest
    let (number, rest) ← takeField .parentChild takeWord rest
    return (.parentChild parent child ⟨UInt64.ofNat number⟩, rest)
  | .unresolved => do
    let (parent, rest) ← takeField .unresolved NodeKey.take bytes
    let (requested, rest) ← Selector.take rest
    let (reason, rest) ← takeField .unresolved takeText rest
    return (.unresolved parent requested reason, rest)

/-- The record of the given kind with this body. -/
def decodeBody (kind : RecordKind) (body : List UInt8) : Except LogError Record := do
  let (record, rest) ← takeFields body kind
  if rest.isEmpty then return record
  else throw (.undecodable (.trailingBytes kind rest.length))

/-! ## Round trip -/

/-- All texts of a record fit. -/
def Fits : Record → Prop
  | .newNode key | .root key | .firstLevel key => key.Fits
  | .parentChild parent child _ => parent.Fits ∧ child.Fits
  | .unresolved parent requested reason => parent.Fits ∧ requested.Fits ∧ Wire.Fits reason

/-- A field that is read is taken. -/
theorem takeField_of_ok {α : Type} {kind : RecordKind}
    {read : List UInt8 → Except WireFault (α × List UInt8)} {bytes : List UInt8}
    {result : α × List UInt8} (h : read bytes = .ok result) :
    takeField kind read bytes = .ok result := by
  rw [takeField, h]
  rfl

/-- The fields of a record are read back from its body, whatever follows. -/
theorem takeFields_encodeBody_append {r : Record} (hn : r.Named) (hf : r.Fits)
    (rest : List UInt8) : takeFields (r.encodeBody ++ rest) r.kind = .ok (r, rest) := by
  cases r with
  | newNode key | root key | firstLevel key =>
    simp [encodeBody, kind, takeFields, takeField_of_ok (NodeKey.take_put_append hf rest), bind,
      Except.bind, pure, Except.pure]
  | parentChild parent child artifacts =>
    have ha := @takeField_of_ok _ .parentChild _ _ _
      (takeWord_putWord_append artifacts.number.toNat_lt rest)
    simp [encodeBody, kind, takeFields, takeField_of_ok (NodeKey.take_put_append hf.1 _),
      takeField_of_ok (NodeKey.take_put_append hf.2 _), ha, bind, Except.bind, pure, Except.pure]
  | unresolved parent requested reason =>
    simp [encodeBody, kind, takeFields, takeField_of_ok (NodeKey.take_put_append hf.1 _),
      Selector.take_put_append hn hf.2.1, takeField_of_ok (takeText_putText_append hf.2.2 _), bind,
      Except.bind, pure, Except.pure]

/-- Records survive encoding and decoding. -/
theorem decodeBody_encodeBody {r : Record} (hn : r.Named) (hf : r.Fits) :
    decodeBody r.kind r.encodeBody = .ok r := by
  have h := takeFields_encodeBody_append hn hf []
  rw [List.append_nil] at h
  simp [decodeBody, h, bind, Except.bind, pure, Except.pure]

end Record

end ResolutionLog
