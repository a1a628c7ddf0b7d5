import Mathlib.Data.List.Basic
import ResolutionLog.Contents
import ResolutionLog.Proofs.Repeats

/-! # Handles that keep their meaning

While a resolution is recorded, artifact sets are registered and selectors are noted in any order, and the handles
that registrations return are written into the stream at once. They are looked up when all this is over.

Seen together, the counter, the search for a set and the table of handles number the registered sets: without
repeats, and in the order in which they first came up, each set has a place, and a handle is the number of a place.
`ContentsTables.Lists` ties the tables to this list, and each call preserves it, since it can only add to the end of
the list. Places that are out of reach of the counter share its last number, so that the invariant needs no bound on
the calls. From it comes what all registrations return (`ContentsTables.registrations_empty`), and that a handle
stands for one set from its registration on, as long as there are not more sets than handles:
`ContentsTables.lookups_after`. -/

namespace ResolutionLog

open Std

namespace ContentsTables

/-! ## Calls -/

/-- A call that changes the tables. -/
inductive Call where
  /-- Note which selector requested a node. -/
  | request (key : NodeKey) (selector : Selector)
  /-- Register an artifact set. -/
  | register (set : ArtifactSet)
deriving DecidableEq

/-- The set that a call registers. -/
def Call.set? : Call → Option ArtifactSet
  | .request .. => none
  | .register set => some set

/-- The selector that a call notes for a node. -/
def Call.selectorFor? (key : NodeKey) : Call → Option Selector
  | .request other selector => if other = key then some selector else none
  | .register _ => none

/-- The sets that some calls register, one after the other. -/
def registered (calls : List Call) : List ArtifactSet := calls.filterMap Call.set?

/-- The tables after some calls. -/
def after : ContentsTables → List Call → ContentsTables
  | t, [] => t
  | t, .request key selector :: later => (t.request key selector).after later
  | t, .register set :: later => (t.register set).2.after later

/-- The registrations among some calls: each set with the handle that is returned for it. -/
def registrations : ContentsTables → List Call → List (ArtifactSet × ArtifactHandle)
  | _, [] => []
  | t, .request key selector :: later => (t.request key selector).registrations later
  | t, .register set :: later => (set, (t.register set).1) :: (t.register set).2.registrations later

end ContentsTables

/-! ## Places of sets -/

namespace ArtifactHandle

/-- The handle of a place. There is a last handle, which the places behind its own share. -/
def ofPlace (place : Nat) : ArtifactHandle := ⟨UInt64.ofNat (min place (UInt64.size - 1))⟩

/-- The number of a place is the place, as far as numbers go. -/
theorem toNat_ofPlace (place : Nat) : (ofPlace place).number.toNat = min place (UInt64.size - 1) := by
  refine UInt64.toNat_ofNat_of_lt' (Nat.lt_of_le_of_lt (Nat.min_le_right _ _) ?_)
  decide

/-- Each handle is that of a place. -/
theorem ofPlace_toNat (handle : ArtifactHandle) : ofPlace handle.number.toNat = handle := by
  have hlt := handle.number.toNat_lt_size
  rw [ofPlace, Nat.min_eq_left (by omega), UInt64.ofNat_toNat]

/-- Different places have the same handle only at the end of the numbers. -/
theorem ofPlace_eq_iff {place other : Nat} :
    ofPlace place = ofPlace other ↔ min place (UInt64.size - 1) = min other (UInt64.size - 1) := by
  constructor
  · intro h
    rw [← toNat_ofPlace, h, toNat_ofPlace]
  · exact fun h => congrArg (fun number => (⟨UInt64.ofNat number⟩ : ArtifactHandle)) h

/-- The counter goes from place to place. -/
theorem numberAfter_ofPlace (place : Nat) :
    (⟨ContentsTables.numberAfter (ofPlace place).number⟩ : ArtifactHandle) = ofPlace (place + 1) := by
  have hmin : min (min place (UInt64.size - 1) + 1) (UInt64.size - 1) = min (place + 1) (UInt64.size - 1) := by
    omega
  rw [ContentsTables.numberAfter, toNat_ofPlace, hmin, ofPlace]

end ArtifactHandle

namespace ContentsTables

open ArtifactHandle (ofPlace)

/-- **Tables list some sets**: without their repeats, and in the order in which they first come, the sets have the
handles from the first one on, and the next handle is behind theirs. -/
structure Lists (t : ContentsTables) (sets : List ArtifactSet) : Prop where
  next_eq : (⟨t.nextNumber⟩ : ArtifactHandle) = ofPlace sets.eraseDups.length
  /-- Only sets that are listed have handles. -/
  placed : ∀ {handle set}, t.artifacts? handle = some set →
    ∃ place, sets.eraseDups[place]? = some set ∧ handle = ofPlace place
  /-- The handle of a place stands for something. -/
  known : ∀ place < sets.eraseDups.length, ∃ set, t.artifacts? (ofPlace place) = some set

/-- The handle of a set among some sets: that of its place when these are listed without their repeats. -/
def handleAmong (sets : List ArtifactSet) (set : ArtifactSet) : ArtifactHandle :=
  ofPlace (sets.eraseDups.idxOf set)

variable {t : ContentsTables} {sets : List ArtifactSet}

/-- What follows does not change the place of a set. -/
theorem handleAmong_append_cons (sets later : List ArtifactSet) (set : ArtifactSet) :
    handleAmong (sets ++ set :: later) set = handleAmong sets set :=
  congrArg ofPlace (idxOf_eraseDups_append_cons sets later set)

/-- In a list without repeats a member is in one place only. -/
theorem place_unique {place other : Nat} {set : ArtifactSet} (h : sets.eraseDups[place]? = some set)
    (h' : sets.eraseDups[other]? = some set) : place = other := by
  obtain ⟨hlt, -⟩ := List.getElem?_eq_some_iff.1 h
  exact (List.getElem?_inj hlt (nodup_eraseDups sets)).1 (h.trans h'.symm)

/-- Empty tables list nothing. -/
theorem lists_empty : empty.Lists [] where
  next_eq := rfl
  placed h := by simp at h
  known _ h := absurd h (Nat.not_lt_zero _)

/-- Noting a selector leaves the list as it is. -/
theorem Lists.request (h : t.Lists sets) (key : NodeKey) (selector : Selector) : (t.request key selector).Lists sets :=
  ⟨h.next_eq, h.placed, h.known⟩

/-- A set that is found has been listed, and is found under its handle. -/
theorem Lists.of_found (h : t.Lists sets) {handle : ArtifactHandle} {set : ArtifactSet}
    (hfound : t.artifacts? handle = some set) : set ∈ sets.eraseDups ∧ handle = handleAmong sets set := by
  obtain ⟨place, hplace, rfl⟩ := h.placed hfound
  have hmem := List.mem_of_getElem? hplace
  exact ⟨hmem, congrArg ofPlace (place_unique hplace (List.getElem?_idxOf hmem))⟩

/-- A set that is listed but not found has lost its handle, which was the last one, to another set. -/
theorem Lists.last_le_of_lost (h : t.Lists sets) {set : ArtifactSet} (hmem : set ∈ sets.eraseDups)
    (hlost : ∀ handle, t.artifacts? handle ≠ some set) : UInt64.size - 1 ≤ sets.eraseDups.idxOf set := by
  obtain ⟨other, hother⟩ := h.known _ (List.idxOf_lt_length_iff.2 hmem)
  obtain ⟨place, hplace, heq⟩ := h.placed hother
  have hne : place ≠ sets.eraseDups.idxOf set := by
    rintro rfl
    obtain rfl := Option.some.inj ((List.getElem?_idxOf hmem).symm.trans hplace)
    exact hlost _ hother
  rw [ArtifactHandle.ofPlace_eq_iff] at heq
  omega

/-- A set that is not found gets the next handle, which is that of its place. -/
theorem Lists.next_of_lost (h : t.Lists sets) {set : ArtifactSet} (hlost : ∀ handle, t.artifacts? handle ≠ some set) :
    (⟨t.nextNumber⟩ : ArtifactHandle) = handleAmong sets set := by
  rw [h.next_eq, handleAmong]
  by_cases hmem : set ∈ sets.eraseDups
  · have hlast := h.last_le_of_lost hmem hlost
    have hlt := List.idxOf_lt_length_iff.2 hmem
    rw [ArtifactHandle.ofPlace_eq_iff]
    omega
  · rw [List.idxOf_eq_length hmem]

/-- **A set that is not found** is listed at the end, unless it is in the list and has lost its handle. -/
theorem Lists.enter (h : t.Lists sets) {set : ArtifactSet} (hlost : ∀ handle, t.artifacts? handle ≠ some set) :
    (t.enter set).Lists (sets ++ [set]) := by
  have hnext := h.next_of_lost hlost
  have hmem : set ∈ (sets ++ [set]).eraseDups := List.mem_eraseDups.2 (by simp)
  have hprefix : sets.eraseDups <+: (sets ++ [set]).eraseDups := by
    rw [eraseDups_concat]
    split
    · exact List.prefix_rfl
    · exact List.prefix_append _ _
  refine ⟨?_, fun {handle other} hfound => ?_, fun place hlt => ?_⟩
  · -- the counter is behind the set, or stays at its end
    have hafter : (⟨(t.enter set).nextNumber⟩ : ArtifactHandle) = ofPlace (sets.eraseDups.length + 1) := by
      rw [← ArtifactHandle.numberAfter_ofPlace, ← h.next_eq, ContentsTables.enter]
    rw [hafter, eraseDups_concat]
    split
    · next hold =>
      have hlast := h.last_le_of_lost hold hlost
      have hlt := List.idxOf_lt_length_iff.2 hold
      rw [ArtifactHandle.ofPlace_eq_iff]
      omega
    · rw [List.length_append, List.length_singleton]
  · rw [artifacts?_enter] at hfound
    split at hfound
    · next heq =>
      obtain rfl := Option.some.inj hfound
      refine ⟨_, List.getElem?_idxOf hmem, ?_⟩
      rw [← heq, hnext, idxOf_eraseDups_append_cons, handleAmong]
    · obtain ⟨place, hplace, rfl⟩ := h.placed hfound
      obtain ⟨hlt, hset⟩ := List.getElem?_eq_some_iff.1 hplace
      exact ⟨place, hset ▸ List.prefix_iff_getElem?.1 hprefix place hlt, rfl⟩
  · rw [artifacts?_enter]
    split
    · exact ⟨set, rfl⟩
    · next hne =>
      refine h.known place (Nat.lt_of_not_le fun hge => hne ?_)
      rw [eraseDups_concat] at hlt
      split at hlt
      · omega
      · rw [List.length_append, List.length_singleton] at hlt
        rw [h.next_eq, Nat.le_antisymm hge (Nat.lt_succ_iff.1 hlt)]

/-- A set that is registered comes last, unless it is there. -/
theorem Lists.register (h : t.Lists sets) (set : ArtifactSet) : (t.register set).2.Lists (sets ++ [set]) := by
  rcases t.register_cases set with ⟨handle, hfound, heq⟩ | ⟨hlost, heq⟩
  · have hsame : (sets ++ [set]).eraseDups = sets.eraseDups := by
      rw [eraseDups_concat, if_pos (h.of_found hfound).1]
    rw [heq]
    exact ⟨hsame ▸ h.next_eq, hsame ▸ h.placed, hsame ▸ h.known⟩
  · rw [heq]
    exact h.enter hlost

/-- **The handle of a set** is that of its place, and what follows does not change this. -/
theorem Lists.handle_register (h : t.Lists sets) (set : ArtifactSet) (later : List ArtifactSet) :
    (t.register set).1 = handleAmong (sets ++ set :: later) set := by
  rw [handleAmong_append_cons]
  rcases t.register_cases set with ⟨handle, hfound, heq⟩ | ⟨hlost, heq⟩
  · rw [heq]
    exact (h.of_found hfound).2
  · rw [heq]
    exact h.next_of_lost hlost

/-- **Tables after some calls** list the sets that these have registered behind those that were there. -/
theorem Lists.after (h : t.Lists sets) (calls : List Call) : (t.after calls).Lists (sets ++ registered calls) := by
  induction calls generalizing t sets with
  | nil => exact (List.append_nil sets).symm ▸ h
  | cons call later ih =>
    cases call with
    | request key selector => exact ih (h.request key selector)
    | register set => exact List.append_cons sets set (registered later) ▸ ih (h.register set)

/-- **Registrations return places**: each set gets its place among all sets that are registered in the end. -/
theorem Lists.registrations (h : t.Lists sets) (calls : List Call) :
    t.registrations calls =
      (registered calls).map fun set => (set, handleAmong (sets ++ registered calls) set) := by
  induction calls generalizing t sets with
  | nil => rfl
  | cons call later ih =>
    cases call with
    | request key selector => exact ih (h.request key selector)
    | register set =>
      -- the later sets come behind this one, so the sets in the end are the same for them
      have hlater := ih (h.register set)
      rw [← List.append_cons] at hlater
      exact List.cons_eq_cons.2 ⟨Prod.ext rfl (h.handle_register set _), hlater⟩

/-- On empty tables each set gets its place among all sets that are registered. -/
theorem registrations_empty (calls : List Call) :
    empty.registrations calls = (registered calls).map fun set => (set, handleAmong (registered calls) set) :=
  lists_empty.registrations calls

/-- More calls go on from the tables that the former have left. -/
theorem registrations_append (t : ContentsTables) (calls later : List Call) :
    t.registrations (calls ++ later) = t.registrations calls ++ (t.after calls).registrations later := by
  induction calls generalizing t with
  | nil => rfl
  | cons call calls ih =>
    cases call with
    | request key selector => exact ih _
    | register set => exact congrArg _ (ih _)

/-! ## Looking up -/

/-- What requested a node is the last selector that was noted for it, or else what was known before. -/
theorem requested?_after (t : ContentsTables) (calls : List Call) (key : NodeKey) :
    (t.after calls).requested? key =
      (calls.filterMap (Call.selectorFor? key)).getLast?.or (t.requested? key) := by
  induction calls generalizing t with
  | nil => rfl
  | cons call later ih =>
    cases call with
    | request other selector =>
      rw [after, ih, requested?_request, List.filterMap_cons, Call.selectorFor?]
      by_cases hkey : other = key
      · rw [if_pos hkey, if_pos hkey, List.getLast?_cons, Option.or_some, Option.some_or]
      · rw [if_neg hkey, if_neg hkey]
    | register set =>
      rw [after, ih, requested?_register]
      rfl

/-! ## As long as there are handles -/

/-- **If there are not more sets than handles**, what a handle stands for is what has its number as its place. -/
theorem Lists.artifacts?_eq (h : t.Lists sets) (hlength : sets.eraseDups.length < UInt64.size)
    (handle : ArtifactHandle) : t.artifacts? handle = sets.eraseDups[handle.number.toNat]? := by
  have hplaced : ∀ {set}, t.artifacts? handle = some set → sets.eraseDups[handle.number.toNat]? = some set := by
    intro set hfound
    obtain ⟨place, hplace, rfl⟩ := h.placed hfound
    obtain ⟨hlt, -⟩ := List.getElem?_eq_some_iff.1 hplace
    rw [ArtifactHandle.toNat_ofPlace, Nat.min_eq_left (by omega), hplace]
  cases hfound : t.artifacts? handle with
  | some set => exact (hplaced hfound).symm
  | none =>
    refine (List.getElem?_eq_none (Nat.le_of_not_lt fun hlt => ?_)).symm
    obtain ⟨set, hset⟩ := h.known _ hlt
    rw [ArtifactHandle.ofPlace_toNat, hfound] at hset
    cases hset

/-- Fewer calls than there are handles register fewer sets. -/
theorem length_registered_lt {calls : List Call} (h : calls.length < UInt64.size) :
    (registered calls).eraseDups.length < UInt64.size :=
  Nat.lt_of_le_of_lt (length_eraseDups_le _) (Nat.lt_of_le_of_lt (List.length_filterMap_le _ _) h)

/-- The number of the handle of a set is its place. -/
theorem toNat_handleAmong (h : sets.eraseDups.length < UInt64.size) (set : ArtifactSet) :
    (handleAmong sets set).number.toNat = sets.eraseDups.idxOf set := by
  have hle : sets.eraseDups.idxOf set ≤ sets.eraseDups.length := List.idxOf_le_length
  rw [handleAmong, ArtifactHandle.toNat_ofPlace, Nat.min_eq_left (by omega)]

/-- Different sets have different handles. -/
theorem handleAmong_inj (h : sets.eraseDups.length < UInt64.size) {a b : ArtifactSet} (ha : a ∈ sets) :
    handleAmong sets a = handleAmong sets b ↔ a = b := by
  constructor
  · intro heq
    have hplaces := congrArg (fun handle => handle.number.toNat) heq
    simp only [toNat_handleAmong h] at hplaces
    exact (List.idxOf_inj (List.mem_eraseDups.2 ha)).1 hplaces
  · exact congrArg _

/-- **What is returned for a set** is the handle under which the set is listed. -/
theorem mem_registrations_iff {calls : List Call} (h : calls.length < UInt64.size) {set : ArtifactSet}
    {handle : ArtifactHandle} :
    (set, handle) ∈ empty.registrations calls ↔
      (registered calls).eraseDups[handle.number.toNat]? = some set := by
  rw [registrations_empty, List.mem_map]
  constructor
  · rintro ⟨other, hmem, heq⟩
    obtain ⟨rfl, rfl⟩ := Prod.mk.inj heq
    rw [toNat_handleAmong (length_registered_lt h)]
    exact List.getElem?_idxOf (List.mem_eraseDups.2 hmem)
  · intro hplace
    obtain ⟨hlt, hset⟩ := List.getElem?_eq_some_iff.1 hplace
    have hmem : set ∈ registered calls := List.mem_eraseDups.1 (hset ▸ List.getElem_mem hlt)
    -- a list without repeats has the set in no other place
    have hfirst : (registered calls).eraseDups.idxOf set = handle.number.toNat :=
      hset ▸ (nodup_eraseDups _).idxOf_getElem _ hlt
    refine ⟨set, hmem, Prod.ext rfl ?_⟩
    rw [handleAmong, hfirst, ArtifactHandle.ofPlace_toNat]

/-- What is looked up under a handle is what the handle was returned for. -/
theorem artifacts?_after_empty_eq_some_iff {calls : List Call} (h : calls.length < UInt64.size) {set : ArtifactSet}
    {handle : ArtifactHandle} :
    (empty.after calls).artifacts? handle = some set ↔ (set, handle) ∈ empty.registrations calls := by
  have hlists : (empty.after calls).Lists (registered calls) := lists_empty.after calls
  rw [hlists.artifacts?_eq (length_registered_lt h), mem_registrations_iff h]

end ContentsTables

/-! ## A sample of calls -/

namespace Sample

/-- The file of a library. -/
def jar : Artifact := ⟨"lib", "jar", none⟩

/-- The manual that comes with the library. -/
def manual : Artifact := ⟨"lib", "pdf", some "manual"⟩

/-- The two files, in one order. -/
def files : ArtifactSet := .ofList [jar, manual]

/-- The two files, in the other order. -/
def filesAgain : ArtifactSet := .ofList [manual, jar]

/-- The file of the library alone. -/
def jarOnly : ArtifactSet := .ofList [jar]

/-- A node that is requested twice. -/
def requestedTwice : NodeKey := ⟨.module ⟨"org", "lib", "1.0"⟩, "compile"⟩

/-- The first set comes up again behind another one, and a node is requested by another selector. -/
def calls : List ContentsTables.Call :=
  [.register files, .request requestedTwice (.build ":lib"), .register ∅, .register filesAgain,
    .request requestedTwice (.module "org" "lib" ⟨"1.+"⟩), .register jarOnly]

end Sample

/-! ## Handles in the end -/

namespace ContentsTables

/-- **Handles keep their meaning**: let sets be registered and selectors be noted in fewer than 2⁶⁴ calls on tables
that were empty. Two registrations return the same handle just if their sets have the same members. The different
sets, in the order in which they first come up, have the handles 0, 1, 2 and so on. What a handle was returned for by
some of the calls is found under it after all of them, and under a handle that no call has returned nothing is found.
What requested a node is the selector that was noted for it last, whatever has been registered. -/
theorem lookups_after {calls : List Call} (h : calls.length < UInt64.size) :
    (∀ a b handle handle', (a, handle) ∈ empty.registrations calls → (b, handle') ∈ empty.registrations calls →
      (handle = handle' ↔ ∀ artifact, artifact ∈ a ↔ artifact ∈ b)) ∧
    (∀ set handle, (set, handle) ∈ empty.registrations calls ↔
      (registered calls).eraseDups[handle.number.toNat]? = some set) ∧
    (∀ earlier later, calls = earlier ++ later → ∀ set handle, (set, handle) ∈ empty.registrations earlier →
      (empty.after calls).artifacts? handle = some set) ∧
    (∀ handle, (∀ set, (set, handle) ∉ empty.registrations calls) → (empty.after calls).artifacts? handle = none) ∧
    ∀ key, (empty.after calls).requested? key = (calls.filterMap (Call.selectorFor? key)).getLast? := by
  refine ⟨?_, fun set handle => mem_registrations_iff h, ?_, ?_, fun key => ?_⟩
  · intro a b handle handle' ha hb
    rw [registrations_empty, List.mem_map] at ha hb
    obtain ⟨_, hmem, heq⟩ := ha
    obtain ⟨rfl, rfl⟩ := Prod.mk.inj heq
    obtain ⟨_, -, heq'⟩ := hb
    obtain ⟨rfl, rfl⟩ := Prod.mk.inj heq'
    rw [handleAmong_inj (length_registered_lt h) hmem, ExtTreeSet.ext_mem_iff]
  · rintro earlier later rfl set handle hmem
    rw [artifacts?_after_empty_eq_some_iff h, registrations_append]
    exact List.mem_append_left _ hmem
  · intro handle hnone
    refine Option.eq_none_iff_forall_ne_some.2 fun set hset => ?_
    exact hnone set ((artifacts?_after_empty_eq_some_iff h).1 hset)
  · rw [requested?_after, requested?_empty, Option.or_none]

/-- The first handle stands for the two files to the end, and the third set gets the handle behind that of the second,
although four sets have been registered. -/
theorem lookups_after_sample :
    Sample.calls.length < UInt64.size ∧ (empty.after Sample.calls).artifacts? ⟨0⟩ = some Sample.filesAgain ∧
      (Sample.jarOnly, (⟨2⟩ : ArtifactHandle)) ∈ empty.registrations Sample.calls ∧
      (empty.after Sample.calls).requested? Sample.requestedTwice = some (.module "org" "lib" ⟨"1.+"⟩) := by
  have hlength : Sample.calls.length < UInt64.size := by decide
  obtain ⟨-, hplaces, hkept, -, hrequested⟩ := lookups_after hlength
  have hfirst : (Sample.filesAgain, (⟨0⟩ : ArtifactHandle)) ∈ empty.registrations (Sample.calls.take 1) := by
    decide +kernel
  refine ⟨hlength, hkept _ _ (List.take_append_drop 1 _).symm _ _ hfirst, (hplaces _ _).2 (by decide +kernel), ?_⟩
  rw [hrequested]
  decide +kernel

end ContentsTables

end ResolutionLog
