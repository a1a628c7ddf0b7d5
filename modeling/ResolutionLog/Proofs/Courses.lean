import Mathlib.Logic.Function.Basic
import Mathlib.Order.Basic
import ResolutionLog.Proofs.Cycles

/-! # What a call asks of the memo tables

A component keeps its answers in two tables, and threads that share the component meet in these tables only. A
look-up takes the lock of a table for reading, an entry takes it for writing, and whatever else a call does it does
without a lock. `Course` is a call seen so: what it asks of the tables, step by step, and how it goes on with each
answer.

An entry is not made when there is one already, since another thread may have been faster (`MemoTable.keep`). So the
entries of a table can only become more, which is the order on tables. -/

namespace ResolutionLog

open Relation Std

/-! ## Tables of shared objects -/

/-- An object that is shared by all who hold it. Two objects may have one value, but are in two places. -/
structure Shared (α : Type) where
  place : Nat
  value : α
deriving DecidableEq

/-- A table of shared objects, which are made when they are entered. -/
structure MemoTable (α : Type) where
  entries : ExtTreeMap String (Shared α)
  /-- The first place that no object has been in. -/
  free : Nat
  place_lt : ∀ (name : String) (kept : Shared α), entries[name]? = some kept → kept.place < free
  /-- An object is entered under one name. -/
  eq_of_place_eq : ∀ (first second : String) (kept kept' : Shared α), entries[first]? = some kept →
    entries[second]? = some kept' → kept.place = kept'.place → first = second

namespace MemoTable

variable {α : Type}

/-- A table without entries. -/
def empty : MemoTable α where
  entries := ∅
  free := 0
  place_lt := by
    intro name kept h
    rw [ExtTreeMap.getElem?_empty] at h
    cases h
  eq_of_place_eq := by
    intro first second kept kept' h
    rw [ExtTreeMap.getElem?_empty] at h
    cases h

/-- The object that is entered under a name. -/
def find (t : MemoTable α) (name : String) : Option (Shared α) := t.entries[name]?

/-- Nothing is found in an empty table. -/
theorem find_empty (name : String) : (empty : MemoTable α).find name = none := ExtTreeMap.getElem?_empty

/-- What is found after an entry was made is this entry, or was there before. -/
theorem find_eq_of_insert {entries : ExtTreeMap String (Shared α)} {name other : String} {kept kept' : Shared α}
    (h : (entries.insert name kept)[other]? = some kept') :
    (name = other ∧ kept = kept') ∨ entries[other]? = some kept' := by
  rw [ExtTreeMap.getElem?_insert] at h
  split at h
  · next heq => exact .inl ⟨LawfulEqCmp.compare_eq_iff_eq.1 heq, Option.some.inj h⟩
  · exact .inr h

/-- A table with a new object under a name. -/
def enter (t : MemoTable α) (name : String) (value : α) : MemoTable α where
  entries := t.entries.insert name ⟨t.free, value⟩
  free := t.free + 1
  place_lt := by
    intro other kept h
    rcases find_eq_of_insert h with ⟨-, rfl⟩ | h
    · exact Nat.lt_succ_self _
    · exact Nat.lt_succ_of_lt (t.place_lt other kept h)
  eq_of_place_eq := by
    -- the new place lies behind those of all older objects
    intro first second kept kept' h h' heq
    rcases find_eq_of_insert h with ⟨rfl, rfl⟩ | h <;> rcases find_eq_of_insert h' with ⟨rfl, rfl⟩ | h'
    · rfl
    · exact absurd heq (Nat.ne_of_gt (t.place_lt second kept' h'))
    · exact absurd heq (Nat.ne_of_lt (t.place_lt first kept h))
    · exact t.eq_of_place_eq first second kept kept' h h' heq

/-- Enter a value under a name, unless there is an entry. What is entered in the end is the answer. -/
def keep (t : MemoTable α) (name : String) (value : α) : Shared α × MemoTable α :=
  match t.find name with
  | some kept => (kept, t)
  | none => (⟨t.free, value⟩, t.enter name value)

/-- What a table holds after a value has been kept. -/
theorem find_keep (t : MemoTable α) (name other : String) (value : α) :
    (t.keep name value).2.find other = if name = other then some (t.keep name value).1 else t.find other := by
  rw [keep]
  split
  · next kept h =>
    split
    · next heq => rw [← heq, h]
    · rfl
  · next h =>
    simp only [find, enter, ExtTreeMap.getElem?_insert, LawfulEqCmp.compare_eq_iff_eq]

/-- The value that counts is the one that was kept first. -/
theorem value_keep (t : MemoTable α) (name : String) (value : α) :
    (t.keep name value).1.value = ((t.find name).map Shared.value).getD value := by
  rw [keep]
  split
  · next kept h => rw [h]; rfl
  · next h => rw [h]; rfl

/-- A later table has all entries of an earlier one. -/
instance : Preorder (MemoTable α) where
  le t later := ∀ name kept, t.find name = some kept → later.find name = some kept
  le_refl t := fun _ _ h => h
  le_trans t t' t'' h h' := fun name kept hk => h' name kept (h name kept hk)

/-- To keep a value adds to a table at most. -/
theorem le_keep (t : MemoTable α) (name : String) (value : α) : t ≤ (t.keep name value).2 := by
  intro other kept h
  rw [find_keep]
  split
  · next heq =>
    subst heq
    rw [keep, h]
  · exact h

end MemoTable

/-- The tables of a component. -/
inductive Memo where
  | hierarchies
  | views
deriving DecidableEq, Repr

/-- What the objects in a table are. -/
abbrev Memo.Value : Memo → Type
  | .hierarchies => NameSet
  | .views => ConfigurationView

/-- The state of both tables. One state comes before another when this holds of both tables. -/
abbrev Memos := (memo : Memo) → MemoTable memo.Value

namespace Memos

/-- No answers are kept. -/
def empty : Memos := fun _ => .empty

/-- Keep a value in one of the tables. -/
def keep (m : Memos) (memo : Memo) (name : String) (value : memo.Value) : Shared memo.Value × Memos :=
  (((m memo).keep name value).1, Function.update m memo ((m memo).keep name value).2)

section Keep

variable (m : Memos) (memo : Memo) (name : String) (value : memo.Value)

/-- To keep a value in one table changes this table as it changes a table by itself. -/
theorem keep_same : (m.keep memo name value).2 memo = ((m memo).keep name value).2 :=
  Function.update_self memo _ m

/-- The other table stays. -/
theorem keep_other {other : Memo} (h : other ≠ memo) : (m.keep memo name value).2 other = m other :=
  Function.update_of_ne h _ m

/-- To keep a value adds to the tables at most. -/
theorem le_keep : m ≤ (m.keep memo name value).2 := by
  intro other
  by_cases h : other = memo
  · subst h
    rw [keep_same]
    exact (m other).le_keep name value
  · rw [keep_other m memo name value h]

/-- The answer to an entry is what is entered. -/
theorem find_keep_self : ((m.keep memo name value).2 memo).find name = some (m.keep memo name value).1 := by
  rw [keep_same, MemoTable.find_keep, if_pos rfl]
  rfl

end Keep

end Memos

/-! ## Courses -/

/-- **The course of a call**: it is done, or it asks for a step and goes on with the answer. A step looks up a name
in a table or keeps a value there. -/
inductive Course (α : Type) where
  | done (answer : α)
  | find (memo : Memo) (name : String) (next : Option (Shared memo.Value) → Course α)
  | keep (memo : Memo) (name : String) (value : memo.Value) (next : Shared memo.Value → Course α)

namespace Course

variable {α β : Type}

/-- One call after another. -/
def bind : Course α → (α → Course β) → Course β
  | done answer, f => f answer
  | find memo name next, f => .find memo name fun found => (next found).bind f
  | keep memo name value next, f => .keep memo name value fun kept => (next kept).bind f

instance : Monad Course where
  pure := done
  bind := bind

/-- The next step, with the tables after it. -/
def step : Course α → Memos → Course α × Memos
  | done answer, m => (done answer, m)
  | find memo name next, m => (next ((m memo).find name), m)
  | keep memo name value next, m => (next (m.keep memo name value).1, (m.keep memo name value).2)

/-- All steps, one after the other with nothing in between. -/
def alone : Course α → Memos → α × Memos
  | done answer, m => (answer, m)
  | find memo name next, m => (next ((m memo).find name)).alone m
  | keep memo name value next, m => (next (m.keep memo name value).1).alone (m.keep memo name value).2

/-- A call that is done alone begins with its first step. -/
theorem alone_step (c : Course α) (m : Memos) : (c.step m).1.alone (c.step m).2 = c.alone m := by
  cases c <;> rfl

/-- A call that goes on with the answer of another one is done alone after that one. -/
theorem alone_bind (c : Course α) (f : α → Course β) (m : Memos) :
    (c.bind f).alone m = (f (c.alone m).1).alone (c.alone m).2 := by
  induction c generalizing m with
  | done answer => rfl
  | find memo name next ih => exact ih _ m
  | keep memo name value next ih => exact ih _ _

/-- **A call is done after at most so many steps**, whatever the answers are. -/
def Within : Course α → Nat → Prop
  | done _, _ => True
  | find _ _ next, n => 0 < n ∧ ∀ found, (next found).Within (n - 1)
  | keep _ _ _ next, n => 0 < n ∧ ∀ kept, (next kept).Within (n - 1)

/-- A bound on the steps of a call may be raised. -/
theorem Within.mono {c : Course α} {n k : Nat} (h : c.Within n) (hle : n ≤ k) : c.Within k := by
  induction c generalizing n k with
  | done answer => trivial
  | find memo name next ih =>
    exact ⟨Nat.lt_of_lt_of_le h.1 hle, fun found => ih found (h.2 found) (Nat.sub_le_sub_right hle 1)⟩
  | keep memo name value next ih =>
    exact ⟨Nat.lt_of_lt_of_le h.1 hle, fun kept => ih kept (h.2 kept) (Nat.sub_le_sub_right hle 1)⟩

/-- The bounds of a call and of what follows it add up. -/
theorem Within.bind {c : Course α} {f : α → Course β} {n k : Nat} (h : c.Within n)
    (hf : ∀ answer, (f answer).Within k) : (c.bind f).Within (n + k) := by
  induction c generalizing n with
  | done answer => exact (hf answer).mono (Nat.le_add_left k n)
  | find memo name next ih =>
    refine ⟨Nat.add_pos_left h.1 k, fun found => ?_⟩
    rw [Nat.sub_add_comm h.1]
    exact ih found (h.2 found)
  | keep memo name value next ih =>
    refine ⟨Nat.add_pos_left h.1 k, fun kept => ?_⟩
    rw [Nat.sub_add_comm h.1]
    exact ih kept (h.2 kept)

/-- A step of a call is one step less to make. -/
theorem Within.step {c : Course α} {n : Nat} (h : c.Within n) (m : Memos) : (c.step m).1.Within (n - 1) := by
  cases c with
  | done answer => trivial
  | find memo name next => exact h.2 _
  | keep memo name value next => exact h.2 _

/-- A call without any steps is done. -/
theorem Within.eq_done {c : Course α} (h : c.Within 0) : ∃ answer, c = done answer := by
  cases c with
  | done answer => exact ⟨answer, rfl⟩
  | find memo name next => exact absurd h.1 (Nat.lt_irrefl 0)
  | keep memo name value next => exact absurd h.1 (Nat.lt_irrefl 0)

end Course

/-! ## The courses of the calls -/

namespace Descriptor

variable {d : Descriptor}

/-- The call for a hierarchy. `unvisited` holds the declared configurations that it is not working on. -/
def hierarchyCourse (d : Descriptor) (unvisited : NameSet) (name : String) : Course (Shared NameSet) :=
  .find .hierarchies name fun
  | some found => .done found
  | none =>
    if h : name ∈ unvisited then
      let rest := unvisited.erase name
      ((d.parents name).foldlM (fun hierarchy parent =>
        if parent ∈ d.configurations ∧ parent ∉ rest then .done (hierarchy.insert parent)
        else (d.hierarchyCourse rest parent).bind fun inherited => .done (hierarchy ∪ inherited.value))
          (.ofList [name])).bind fun hierarchy => .keep .hierarchies name hierarchy .done
    else .keep .hierarchies name (.ofList [name]) .done
termination_by unvisited.size
decreasing_by exact size_erase_lt h

/-- What a call does with one parent: pass over it, or take over what it is answered for it. -/
def climbCourse (d : Descriptor) (rest : NameSet) (hierarchy : NameSet) (parent : String) : Course NameSet :=
  if parent ∈ d.configurations ∧ parent ∉ rest then .done (hierarchy.insert parent)
  else (d.hierarchyCourse rest parent).bind fun inherited => .done (hierarchy ∪ inherited.value)

/-- The call for a hierarchy when none is kept. -/
def freshHierarchyCourse (d : Descriptor) (unvisited : NameSet) (name : String) : Course (Shared NameSet) :=
  if name ∈ unvisited then
    ((d.parents name).foldlM (d.climbCourse (unvisited.erase name)) (.ofList [name])).bind fun hierarchy =>
      .keep .hierarchies name hierarchy .done
  else .keep .hierarchies name (.ofList [name]) .done

/-- A hierarchy is looked up, and is made only if it is not found. -/
theorem hierarchyCourse_eq (d : Descriptor) (unvisited : NameSet) (name : String) :
    d.hierarchyCourse unvisited name = .find .hierarchies name fun
      | some found => .done found
      | none => d.freshHierarchyCourse unvisited name := by
  rw [hierarchyCourse]
  rfl

/-- The call for a configuration that no view is kept for. -/
def freshConfigurationCourse (d : Descriptor) (id : ComponentId) (artifacts : DeclaredArtifacts) (name : String) :
    Course (Option (Shared ConfigurationView)) :=
  match d.configuration? name with
  | none => .done none
  | some c => (d.hierarchyCourse d.names name).bind fun hierarchy =>
    .keep .views name (d.view id artifacts c hierarchy.value) fun kept => .done (some kept)

/-- The call for a configuration. -/
def configurationCourse (d : Descriptor) (id : ComponentId) (artifacts : DeclaredArtifacts) (name : String) :
    Course (Option (Shared ConfigurationView)) :=
  .find .views name fun
  | some found => .done (some found)
  | none => d.freshConfigurationCourse id artifacts name

end Descriptor

namespace ComponentMetadata

/-- What a question is answered with. -/
abbrev Query.Answer : Query → Type
  | .hierarchy _ => Shared NameSet
  | .configuration _ => Option (Shared ConfigurationView)

/-- The call for the answer to a question. -/
def Query.course (d : Descriptor) (id : ComponentId) (artifacts : DeclaredArtifacts) :
    (query : Query) → Course query.Answer
  | .hierarchy name => d.hierarchyCourse d.names name
  | .configuration name => d.configurationCourse id artifacts name

end ComponentMetadata

/-! ## Calls come to an end -/

namespace Descriptor

variable {d : Descriptor}

/-- To climb to all parents is bounded if a hierarchy is, whatever has been found before. -/
theorem exists_within_foldlM_climbCourse {rest : NameSet}
    (hcourse : ∀ parent, ∃ n, (d.hierarchyCourse rest parent).Within n) (parents : List String) :
    ∃ n, ∀ start, (parents.foldlM (d.climbCourse rest) start).Within n := by
  induction parents with
  | nil => exact ⟨0, fun _ => trivial⟩
  | cons parent parents ih =>
    obtain ⟨n, hn⟩ := hcourse parent
    obtain ⟨k, hk⟩ := ih
    refine ⟨n + k, fun start => ?_⟩
    have hclimb : (d.climbCourse rest start parent).Within n := by
      rw [climbCourse]
      split
      · trivial
      · have hunion : ∀ inherited : Shared NameSet, (Course.done (start ∪ inherited.value)).Within 0 :=
          fun _ => trivial
        exact hn.bind hunion
    exact hclimb.bind hk

/-- The steps of a call for a hierarchy are bounded, since it does not enter a name that it is working on. -/
theorem exists_within_hierarchyCourse (d : Descriptor) (unvisited : NameSet) (name : String) :
    ∃ n, (d.hierarchyCourse unvisited name).Within n := by
  -- fewer configurations are unvisited when the call goes on to the parents, of which there are finitely many
  induction hs : unvisited.size using Nat.strongRecOn generalizing unvisited name with
  | ind n ih =>
    have hmiss : ∃ n, (d.freshHierarchyCourse unvisited name).Within n := by
      by_cases hm : name ∈ unvisited
      · obtain ⟨k, hk⟩ := exists_within_foldlM_climbCourse
          (fun parent => ih _ (hs ▸ size_erase_lt hm) (unvisited.erase name) parent rfl) (d.parents name)
        refine ⟨k + 1, ?_⟩
        rw [freshHierarchyCourse, if_pos hm]
        exact (hk _).bind fun _ => ⟨Nat.zero_lt_one, fun _ => trivial⟩
      · refine ⟨1, ?_⟩
        rw [freshHierarchyCourse, if_neg hm]
        exact ⟨Nat.zero_lt_one, fun _ => trivial⟩
    -- the look-up comes first
    obtain ⟨k, hk⟩ := hmiss
    refine ⟨k + 1, ?_⟩
    rw [hierarchyCourse_eq]
    refine ⟨Nat.succ_pos k, fun found => ?_⟩
    cases found with
    | some found => trivial
    | none => exact hk

end Descriptor

/-- **A call makes a bounded number of steps**, whatever the answers are. -/
theorem ComponentMetadata.Query.exists_within_course (d : Descriptor) (id : ComponentId)
    (artifacts : DeclaredArtifacts) (query : Query) : ∃ n, (query.course d id artifacts).Within n := by
  cases query with
  | hierarchy name => exact d.exists_within_hierarchyCourse d.names name
  | configuration name =>
    obtain ⟨k, hk⟩ := d.exists_within_hierarchyCourse d.names name
    -- one step for the look-up, and one for the entry
    refine ⟨k + 1 + 1, Nat.succ_pos _, fun found => ?_⟩
    cases found with
    | some found => trivial
    | none =>
      show (d.freshConfigurationCourse id artifacts name).Within (k + 1)
      rw [Descriptor.freshConfigurationCourse]
      cases d.configuration? name with
      | none => trivial
      | some c => exact hk.bind fun _ => ⟨Nat.zero_lt_one, fun _ => trivial⟩

/-! ## Calls that run alone -/

/-- The values in a table, without the places where they are. -/
def MemoTable.values {α : Type} (t : MemoTable α) : ExtTreeMap String α := t.entries.map fun _ kept => kept.value

/-- The values of a table are those that are found in it. -/
theorem MemoTable.getElem?_values {α : Type} (t : MemoTable α) (name : String) :
    t.values[name]? = (t.find name).map Shared.value :=
  ExtTreeMap.getElem?_map

/-- An empty table has no values. -/
theorem MemoTable.values_empty {α : Type} : (empty : MemoTable α).values = ∅ := by
  refine ExtTreeMap.ext_getElem? fun {name} => ?_
  rw [getElem?_values, find_empty, ExtTreeMap.getElem?_empty, Option.map_none]

/-- A value is kept where there was none. -/
theorem MemoTable.values_keep {α : Type} (t : MemoTable α) (name : String) (value : α) :
    (t.keep name value).2.values = t.values.insertIfNew name value := by
  refine ExtTreeMap.ext_getElem? fun {other} => ?_
  simp only [getElem?_values, find_keep, ExtTreeMap.getElem?_insertIfNew, LawfulEqCmp.compare_eq_iff_eq,
    ExtTreeMap.mem_iff_isSome_getElem?, Option.isSome_map]
  by_cases heq : name = other
  · subst heq
    rw [if_pos rfl, Option.map_some, value_keep]
    cases t.find name <;> simp
  · simp [heq]

/-- The value that is kept counts, or else the new one. -/
theorem MemoTable.value_keep_eq {α : Type} (t : MemoTable α) (name : String) (value : α) :
    (t.keep name value).1.value = t.values[name]?.getD value := by
  rw [value_keep, getElem?_values]

namespace Descriptor

variable {d : Descriptor}

/-- What a call does when it runs alone is one turn of a walk: the rules tell what becomes of the name, and the
views stay. -/
def IsTurn (d : Descriptor) (working : NameSet) (name : String) (m : Memos) (result : Shared NameSet × Memos) :
    Prop :=
  result.2 .views = m .views ∧ ∀ {names found found' table'},
    d.Collects working names (found ∪ result.1.value) (result.2 .hierarchies).values found' table' →
      d.Collects working (name :: names) found (m .hierarchies).values found' table'

/-- The calls for the parents of a name follow the rules, one after the other, if each of them does. -/
theorem collects_foldlM_climbCourse {rest working : NameSet}
    (hworking : ∀ parent, parent ∈ working ↔ parent ∈ d.configurations ∧ parent ∉ rest)
    (hcourse : ∀ parent m, parent ∉ working →
      d.IsTurn working parent m ((d.hierarchyCourse rest parent).alone m))
    (parents : List String) (found : NameSet) (m : Memos) :
    ((parents.foldlM (d.climbCourse rest) found).alone m).2 .views = m .views ∧
      d.Collects working parents found (m .hierarchies).values
        ((parents.foldlM (d.climbCourse rest) found).alone m).1
        (((parents.foldlM (d.climbCourse rest) found).alone m).2 .hierarchies).values := by
  induction parents generalizing found m with
  | nil => exact ⟨rfl, .done⟩
  | cons parent parents ih =>
    have hcons : (parent :: parents).foldlM (d.climbCourse rest) found =
        (d.climbCourse rest found parent).bind (parents.foldlM (d.climbCourse rest)) := List.foldlM_cons
    rw [hcons, Course.alone_bind, climbCourse]
    split
    · next hpassed =>
      obtain ⟨hviews, hrest⟩ := ih (found.insert parent) m
      exact ⟨hviews, .passed ((hworking parent).2 hpassed) hrest⟩
    · next hvisited =>
      rw [Course.alone_bind]
      obtain ⟨hviews, hrest⟩ := ih (found ∪ ((d.hierarchyCourse rest parent).alone m).1.value)
        ((d.hierarchyCourse rest parent).alone m).2
      obtain ⟨hsame, hturn⟩ := hcourse parent m (mt (hworking parent).1 hvisited)
      exact ⟨hviews.trans hsame, hturn hrest⟩

/-- What is found in the end is kept, unless something has been kept in the meantime. -/
theorem isTurn_keep {working own : NameSet} {name : String} {m inner : Memos} (hn : name ∉ working)
    (hunknown : name ∉ (m .hierarchies).values) (hviews : inner .views = m .views)
    (hclimb : d.Collects (working.insert name) (d.parents name) (.ofList [name]) (m .hierarchies).values own
      (inner .hierarchies).values) :
    d.IsTurn working name m ((Course.keep .hierarchies name own .done).alone inner) := by
  rw [Course.alone, Course.alone]
  -- the rule for a name that is entered spares earlier entries too
  refine ⟨?_, fun rest => .entered hn hunknown hclimb ?_⟩
  · rw [Memos.keep_other _ _ _ _ (by decide), hviews]
  · rw [Memos.keep_same, MemoTable.values_keep, Memos.keep, MemoTable.value_keep_eq] at rest
    exact rest

/-- **A call for a hierarchy that runs alone follows the rules of a walk.** -/
theorem isTurn_hierarchyCourse {unvisited working : NameSet} {name : String} (hd : d.Divides unvisited working)
    (hn : name ∉ working) (m : Memos) :
    d.IsTurn working name m ((d.hierarchyCourse unvisited name).alone m) := by
  -- fewer configurations are unvisited when the call goes on to the parents
  induction hs : unvisited.size using Nat.strongRecOn generalizing unvisited working name m with
  | ind n ih =>
    rw [hierarchyCourse_eq, Course.alone]
    cases hkept : (m .hierarchies).find name with
    | some kept =>
      refine ⟨rfl, fun rest => .kept hn ?_ rest⟩
      rw [MemoTable.getElem?_values, hkept]
      rfl
    | none =>
      have hunknown : name ∉ (m .hierarchies).values := by
        rw [ExtTreeMap.mem_iff_isSome_getElem?, MemoTable.getElem?_values, hkept]
        exact Bool.false_ne_true
      by_cases hm : name ∈ unvisited
      · obtain ⟨hviews, hclimb⟩ := collects_foldlM_climbCourse (hd.enter hm).mem_working_iff
          (fun parent m hp => ih _ (hs ▸ size_erase_lt hm) (hd.enter hm) hp m rfl) (d.parents name)
          (.ofList [name]) m
        simp only [freshHierarchyCourse, if_pos hm, Course.alone_bind]
        exact isTurn_keep hn hunknown hviews hclimb
      · simp only [freshHierarchyCourse, if_neg hm]
        exact isTurn_keep hn hunknown rfl (hd.collects_parents hm hn _)

/-- **A call for a hierarchy that runs alone is the question for it.** -/
theorem alone_hierarchyCourse (d : Descriptor) (name : String) (m : Memos) :
    ((d.hierarchyCourse d.names name).alone m).1.value = (d.hierarchy name (m .hierarchies).values).1 ∧
      (((d.hierarchyCourse d.names name).alone m).2 .hierarchies).values =
        (d.hierarchy name (m .hierarchies).values).2 ∧
      ((d.hierarchyCourse d.names name).alone m).2 .views = m .views := by
  obtain ⟨hviews, hturn⟩ :=
    isTurn_hierarchyCourse d.divides_names (ExtTreeSet.not_mem_empty : name ∉ (∅ : NameSet)) m
  have hcollects : d.Collects ∅ [name] ∅ (m .hierarchies).values
      (∅ ∪ ((d.hierarchyCourse d.names name).alone m).1.value)
      (((d.hierarchyCourse d.names name).alone m).2 .hierarchies).values := hturn .done
  rw [empty_union] at hcollects
  obtain ⟨hfound, htable⟩ := hcollects.unique (d.collects_hierarchy name (m .hierarchies).values)
  exact ⟨hfound, htable, hviews⟩

end Descriptor

namespace ComponentMetadata

/-- The tables hold what a component has kept. -/
structure HeldBy (c : ComponentMetadata) (m : Memos) : Prop where
  hierarchies_eq : (m .hierarchies).values = c.hierarchies
  views_eq : (m .views).values = c.views

/-- Empty tables hold what a component has kept that has answered nothing. -/
theorem heldBy_fresh (id : ComponentId) (d : Descriptor) (artifacts : DeclaredArtifacts) :
    (fresh id d artifacts).HeldBy .empty where
  hierarchies_eq := MemoTable.values_empty
  views_eq := MemoTable.values_empty

/-- The answer to a question tells what the component would answer. -/
def Gives (c : ComponentMetadata) : (query : Query) → query.Answer → Prop
  | .hierarchy name, found => found.value = (c.hierarchy name).1
  | .configuration name, found => found.map Shared.value = (c.configuration? name).1

/-- **A call that runs alone is the question to the component**, in its answer and in what is kept after it. -/
theorem HeldBy.alone_course {c : ComponentMetadata} {m : Memos} (h : c.HeldBy m) (query : Query) :
    c.Gives query ((query.course c.descriptor c.id c.artifacts).alone m).1 ∧
      (c.ask query).HeldBy ((query.course c.descriptor c.id c.artifacts).alone m).2 := by
  obtain ⟨hhierarchies, hviews⟩ := h
  have hview : ∀ name, c.views[name]? = ((m .views).find name).map Shared.value := by
    intro name
    rw [← hviews, MemoTable.getElem?_values]
  cases query with
  | hierarchy name =>
    obtain ⟨hfound, htable, hsame⟩ := c.descriptor.alone_hierarchyCourse name m
    rw [hhierarchies] at hfound htable
    exact ⟨hfound, htable, hsame ▸ hviews⟩
  | configuration name =>
    cases hkept : (m .views).find name with
    | some kept =>
      have hknown : c.views[name]? = some kept.value := by
        rw [hview, hkept]
        rfl
      rw [Query.course, Descriptor.configurationCourse, Course.alone, hkept, Gives, ask,
        configuration?_of_kept hknown]
      exact ⟨rfl, hhierarchies, hviews⟩
    | none =>
      have hunknown : c.views[name]? = none := by
        rw [hview, hkept]
        rfl
      rw [Query.course, Descriptor.configurationCourse, Course.alone, hkept, Gives, ask,
        ComponentMetadata.configuration?, hunknown]
      show _ = _ ∧ HeldBy _ _
      simp only [Descriptor.freshConfigurationCourse]
      cases hc : c.descriptor.configuration? name with
      | none => exact ⟨rfl, hhierarchies, hviews⟩
      | some declared =>
        obtain ⟨hfound, htable, hsame⟩ := c.descriptor.alone_hierarchyCourse name m
        rw [hhierarchies] at hfound htable
        have hnew : name ∉ (m .views).values := by
          rw [hviews, ExtTreeMap.mem_iff_isSome_getElem?, hunknown]
          exact Bool.false_ne_true
        -- both make the view of one hierarchy
        have hsaw : c.descriptor.view c.id c.artifacts declared
            ((c.descriptor.hierarchyCourse c.descriptor.names name).alone m).1.value =
              c.descriptor.view c.id c.artifacts declared (c.hierarchy name).1 := congrArg _ hfound
        simp only [Course.alone_bind, Course.alone, hsaw]
        refine ⟨?_, ?_, ?_⟩
        · -- the call for the hierarchy has left the views as they were
          show some (Shared.value (MemoTable.keep _ _ _).1) = _
          rw [MemoTable.value_keep_eq, hsame, ExtTreeMap.getElem?_eq_none hnew]
          rfl
        · rw [Memos.keep_other _ _ _ _ (by decide), htable]
          rfl
        · rw [Memos.keep_same, MemoTable.values_keep, hsame, Descriptor.insertIfNew_eq_insert hnew, hviews]
          rfl

end ComponentMetadata

end ResolutionLog
