import ResolutionLog.Record
import Std.Data.ExtTreeMap

/-! # Contents

A stream holds keys and handles only. What the keys were requested by and which artifacts the handles
stand for is kept beside it, by whoever recorded the resolution, and is looked up when the stream is
read back.

`Contents` is any pair of look-ups. `ContentsTables` are the tables behind the usual one. A counter tells the
handle of the next artifact set that is new; whether a set is new is found out by a search for the set among those
that have handles, so equal sets share a handle. -/

namespace ResolutionLog

open Std

/-! ## Look-ups -/

/-- How a look-up ends. -/
inductive Lookup (α : Type) where
  /-- The value is known. -/
  | found (value : α)
  /-- There is no such value. -/
  | missing
  /-- The look-up gives up, and with it the caller. -/
  | aborted
deriving DecidableEq, Repr

/-- A look-up that never gives up. -/
def Lookup.ofOption {α : Type} : Option α → Lookup α
  | some value => .found value
  | none => .missing

/-- What a reader of a stream looks up. -/
structure Contents where
  /-- The selector that requested a node. -/
  requested : NodeKey → Lookup Selector
  /-- The artifact set behind a handle. -/
  artifacts : ArtifactHandle → Lookup ArtifactSet

/-- The contents whose look-ups always give up. -/
def Contents.aborting : Contents := ⟨fun _ => .aborted, fun _ => .aborted⟩

/-! ## Tables -/

/-- The selectors and artifact sets that were handed out while a resolution was recorded. -/
structure ContentsTables where
  /-- The selector that requested each node. -/
  requested : ExtTreeMap NodeKey Selector
  /-- The artifact set that each handle stands for. -/
  artifacts : ExtTreeMap ArtifactHandle ArtifactSet
  /-- The number of the handle that the next new set gets. -/
  nextNumber : UInt64
deriving DecidableEq

namespace ContentsTables

/-- Nothing is known yet. -/
def empty : ContentsTables := ⟨∅, ∅, 0⟩

/-- Note which selector requested a node; the last note counts. -/
def request (t : ContentsTables) (key : NodeKey) (selector : Selector) : ContentsTables :=
  { t with requested := t.requested.insert key selector }

/-- The number after another one; the last number has none, and stays. -/
def numberAfter (number : UInt64) : UInt64 := UInt64.ofNat (min (number.toNat + 1) (UInt64.size - 1))

/-- Give a set the next handle. -/
def enter (t : ContentsTables) (set : ArtifactSet) : ContentsTables :=
  { t with artifacts := t.artifacts.insert ⟨t.nextNumber⟩ set, nextNumber := numberAfter t.nextNumber }

/-- The handle of an artifact set: the first that stands for it, or else a new one. -/
def register (t : ContentsTables) (set : ArtifactSet) : ArtifactHandle × ContentsTables :=
  match t.artifacts.toList.find? (·.2 == set) with
  | some (handle, _) => (handle, t)
  | none => (⟨t.nextNumber⟩, t.enter set)

/-- The selector that requested a node. -/
def requested? (t : ContentsTables) (key : NodeKey) : Option Selector := t.requested[key]?

/-- The artifact set behind a handle. -/
def artifacts? (t : ContentsTables) (handle : ArtifactHandle) : Option ArtifactSet := t.artifacts[handle]?

/-- The look-ups in the tables. -/
def contents (t : ContentsTables) : Contents :=
  ⟨fun key => .ofOption (t.requested? key), fun handle => .ofOption (t.artifacts? handle)⟩

/-- Nothing is found in empty tables. -/
@[simp] theorem requested?_empty (key : NodeKey) : empty.requested? key = none := ExtTreeMap.getElem?_empty

/-- No handle stands for anything in empty tables. -/
@[simp] theorem artifacts?_empty (handle : ArtifactHandle) : empty.artifacts? handle = none :=
  ExtTreeMap.getElem?_empty

/-- The last selector noted for a node is found, and those of other nodes are as before. -/
theorem requested?_request (t : ContentsTables) (key other : NodeKey) (selector : Selector) :
    (t.request key selector).requested? other =
      if key = other then some selector else t.requested? other := by
  simp only [request, requested?, ExtTreeMap.getElem?_insert, LawfulEqCmp.compare_eq_iff_eq]

/-- A set that is entered is found under the next handle, and other handles stand for what they stood for. -/
theorem artifacts?_enter (t : ContentsTables) (set : ArtifactSet) (handle : ArtifactHandle) :
    (t.enter set).artifacts? handle =
      if (⟨t.nextNumber⟩ : ArtifactHandle) = handle then some set else t.artifacts? handle := by
  simp only [enter, artifacts?, ExtTreeMap.getElem?_insert, LawfulEqCmp.compare_eq_iff_eq]

/-- **A registration** returns a handle that stands for the set and changes nothing, or, if there is no such handle,
enters the set. -/
theorem register_cases (t : ContentsTables) (set : ArtifactSet) :
    (∃ handle, t.artifacts? handle = some set ∧ t.register set = (handle, t)) ∨
      (∀ handle, t.artifacts? handle ≠ some set) ∧ t.register set = (⟨t.nextNumber⟩, t.enter set) := by
  unfold register
  split
  · next handle found h =>
    have hmem := List.mem_of_find?_eq_some h
    obtain rfl : found = set := by simpa using List.find?_some h
    exact .inl ⟨handle, ExtTreeMap.mem_toList_iff_getElem?_eq_some.1 hmem, rfl⟩
  · next h =>
    refine .inr ⟨fun handle hfound => ?_, rfl⟩
    have hmem := ExtTreeMap.mem_toList_iff_getElem?_eq_some.2 hfound
    exact List.find?_eq_none.1 h _ hmem BEq.rfl

/-- Registering a set changes no selector. -/
@[simp] theorem requested?_register (t : ContentsTables) (set : ArtifactSet) (key : NodeKey) :
    (t.register set).2.requested? key = t.requested? key := by
  rcases t.register_cases set with ⟨handle, -, h⟩ | ⟨-, h⟩
  · rw [h]
  · rw [h]
    rfl

end ContentsTables

end ResolutionLog
