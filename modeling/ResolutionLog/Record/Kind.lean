import Std.Data.ExtTreeSet

/-! # Kinds of records

A recorded stream holds five kinds of records. Each kind has a tag byte, by which the reader tells
records apart, and a name for messages. -/

namespace ResolutionLog

open Std

/-- What a record tells about the graph. -/
inductive RecordKind where
  /-- A node was registered. -/
  | newNode
  /-- The root of the graph; always the last record. -/
  | root
  /-- A first-level dependency of the root. -/
  | firstLevel
  /-- An edge, with the artifacts that the child exposes through it. -/
  | parentChild
  /-- A dependency for which resolution found nothing. -/
  | unresolved
deriving DecidableEq, Repr, Inhabited

namespace RecordKind

/-- All kinds, by increasing tag. -/
def all : List RecordKind := [.newNode, .root, .firstLevel, .parentChild, .unresolved]

/-- The byte that stands first in a record of this kind. -/
def tag : RecordKind → UInt8
  | .newNode => 1
  | .root => 2
  | .firstLevel => 3
  | .parentChild => 4
  | .unresolved => 5

/-- The kind with a given tag. -/
def ofTag? (tag : UInt8) : Option RecordKind := all.find? (·.tag = tag)

/-- The name of a kind in messages. -/
def display : RecordKind → String
  | .newNode => "NEW_NODE"
  | .root => "ROOT"
  | .firstLevel => "FIRST_LEVEL"
  | .parentChild => "PARENT_CHILD"
  | .unresolved => "UNRESOLVED"

instance : ToString RecordKind := ⟨display⟩

/-- A kind is found by its tag. -/
@[simp] theorem ofTag?_tag (kind : RecordKind) : ofTag? kind.tag = some kind := by
  cases kind <;> rfl

/-- Different kinds have different tags. -/
theorem tag_injective : Function.Injective tag := fun a b h =>
  Option.some.inj (by rw [← ofTag?_tag a, h, ofTag?_tag])

/-- A tag stands for the kind that has it. -/
theorem ofTag?_eq_some_iff {tag : UInt8} {kind : RecordKind} :
    ofTag? tag = some kind ↔ kind.tag = tag := by
  constructor
  · intro h
    simpa using List.find?_some h
  · rintro rfl
    exact ofTag?_tag kind

/-- Kinds are ordered by their tags. -/
instance : Ord RecordKind := ⟨compareOn tag⟩

instance : TransOrd RecordKind := inferInstanceAs (TransCmp (compareOn tag))

instance : LawfulEqOrd RecordKind where
  eq_of_compare {a b} h := tag_injective (LawfulEqOrd.eq_of_compare (h : compareOn tag a b = .eq))

end RecordKind

end ResolutionLog
