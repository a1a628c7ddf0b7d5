import Mathlib.Data.List.Induction
import Mathlib.Logic.Relation
import ResolutionLog.Descriptor

/-! # Declarations that extend one another

A module declares configurations in a list, and of several declarations of one name only the last counts
(`LastDeclared`). So a list says which names extend which (`Extends`). The descriptor that is made of the list
knows exactly this: `Descriptor.ofLists_configuration?_eq_some_iff`, `Descriptor.extends_ofLists`.

A name is *free of cycles* when none of the names that it reaches, itself among them, comes back to itself
(`CycleFree`). Elsewhere there may be cycles. -/

namespace ResolutionLog

open Relation Std

/-- A declaration that is the last one of its name. -/
def LastDeclared (declarations : List Configuration) (c : Configuration) : Prop :=
  ∃ before after, declarations = before ++ c :: after ∧ ∀ other ∈ after, other.name ≠ c.name

/-- Nothing is declared last among no configurations. -/
theorem not_lastDeclared_nil (c : Configuration) : ¬LastDeclared [] c := by
  rintro ⟨before, after, h, -⟩
  exact List.append_ne_nil_of_right_ne_nil before (List.cons_ne_nil c after) h.symm

/-- A declaration that comes last counts, and takes the place of all others of its name. -/
theorem lastDeclared_concat_iff {declarations : List Configuration} {last c : Configuration} :
    LastDeclared (declarations ++ [last]) c ↔
      c = last ∨ (last.name ≠ c.name ∧ LastDeclared declarations c) := by
  constructor
  · rintro ⟨before, after, h, hafter⟩
    rcases List.eq_nil_or_concat after with rfl | ⟨after, other, rfl⟩
    · obtain ⟨-, hlast⟩ := List.append_inj' h rfl
      exact .inl (List.singleton_inj.1 hlast).symm
    · rw [List.concat_eq_append] at h hafter
      rw [← List.cons_append, ← List.append_assoc] at h
      obtain ⟨hbefore, hlast⟩ := List.append_inj' h rfl
      obtain rfl := List.singleton_inj.1 hlast
      refine .inr ⟨hafter last (List.mem_append_right _ List.mem_cons_self), before, after, hbefore, ?_⟩
      exact fun other hm => hafter other (List.mem_append_left _ hm)
  · rintro (rfl | ⟨hne, before, after, rfl, hafter⟩)
    · exact ⟨declarations, [], rfl, fun _ hm => absurd hm List.not_mem_nil⟩
    · refine ⟨before, after ++ [last], by rw [List.append_assoc, List.cons_append], fun other hm => ?_⟩
      rcases List.mem_append.1 hm with hm | hm
      · exact hafter other hm
      · rw [List.mem_singleton.1 hm]
        exact hne

/-- A name that is declared has a last declaration. -/
theorem exists_lastDeclared_iff {declarations : List Configuration} {name : String} :
    (∃ c, LastDeclared declarations c ∧ c.name = name) ↔ ∃ c ∈ declarations, c.name = name := by
  induction declarations using List.reverseRecOn with
  | nil => simp [not_lastDeclared_nil]
  | append_singleton declarations last ih =>
    simp only [lastDeclared_concat_iff, List.mem_append, List.mem_singleton]
    constructor
    · rintro ⟨c, rfl | ⟨-, hc⟩, rfl⟩
      · exact ⟨c, .inr rfl, rfl⟩
      · obtain ⟨d, hd, hname⟩ := ih.1 ⟨c, hc, rfl⟩
        exact ⟨d, .inl hd, hname⟩
    · rintro ⟨c, hc, rfl⟩
      by_cases hlast : last.name = c.name
      · exact ⟨last, .inl rfl, hlast⟩
      · rcases hc with hc | rfl
        · obtain ⟨d, hd, hname⟩ := ih.2 ⟨c, hc, rfl⟩
          exact ⟨d, .inr ⟨hname ▸ hlast, hd⟩, hname⟩
        · exact absurd rfl hlast

/-- One name extends another when its last declaration says so. -/
def Extends (declarations : List Configuration) (name parent : String) : Prop :=
  ∃ c, LastDeclared declarations c ∧ c.name = name ∧ parent ∈ c.parents

/-- What a name extends is said by some declaration of it. -/
theorem Extends.exists_mem {declarations : List Configuration} {name parent : String}
    (h : Extends declarations name parent) : ∃ c ∈ declarations, c.name = name ∧ parent ∈ c.parents := by
  obtain ⟨c, ⟨before, after, rfl, -⟩, hname, hparent⟩ := h
  exact ⟨c, List.mem_append_right _ List.mem_cons_self, hname, hparent⟩

/-- Nothing that is reached from here comes back to itself. -/
def CycleFree {α : Type} (step : α → α → Prop) (a : α) : Prop :=
  ∀ b, ReflTransGen step a b → ¬TransGen step b b

/-- A step leads from what is free of cycles to what is free of cycles. -/
theorem CycleFree.of_step {α : Type} {step : α → α → Prop} {a b : α} (h : CycleFree step a)
    (hs : step a b) : CycleFree step b := fun c hc => h c (.head hs hc)

/-- No cycle through several names can be reached from here; a name may come back to itself at once. -/
def LoopsOnly {α : Type} (step : α → α → Prop) (a : α) : Prop :=
  ∀ b c, ReflTransGen step a b → ReflTransGen step b c → ReflTransGen step c b → b = c

/-- What is reached from a place without longer cycles is such a place. -/
theorem LoopsOnly.of_reach {α : Type} {step : α → α → Prop} {a b : α} (h : LoopsOnly step a)
    (hr : ReflTransGen step a b) : LoopsOnly step b := fun c e hc => h c e (hr.trans hc)

/-- What is reached is reached without coming back to the start. -/
theorem eq_or_exists_step_ne {α : Type} {step : α → α → Prop} {a b : α} (h : ReflTransGen step a b) :
    b = a ∨ ∃ c, step a c ∧ c ≠ a ∧ ReflTransGen step c b := by
  induction h with
  | refl => exact .inl rfl
  | @tail b c _ hs ih =>
    by_cases hc : c = a
    · exact .inl hc
    · rcases ih with rfl | ⟨first, hfirst, hne, hreach⟩
      · exact .inr ⟨c, hs, hc, .refl⟩
      · exact .inr ⟨first, hfirst, hne, hreach.tail hs⟩

namespace Descriptor

/-- One name extends another in a descriptor. -/
def Extends (d : Descriptor) (name parent : String) : Prop := parent ∈ d.parents name

variable {declarations : List Configuration} {dependencies : List Dependency}
  {excludes : List ExcludeRule}

/-- A declaration that comes last is the one that the descriptor has of its name. -/
theorem configuration?_ofLists_concat (last : Configuration) (name : String) :
    (ofLists (declarations ++ [last]) dependencies excludes).configuration? name =
      if last.name = name then some last
      else (ofLists declarations dependencies excludes).configuration? name := by
  simp only [configuration?, ofLists, List.foldl_append, List.foldl_cons, List.foldl_nil,
    ExtTreeMap.getElem?_insert, LawfulEqCmp.compare_eq_iff_eq]

/-- A descriptor has the last declaration of each name. -/
theorem ofLists_configuration?_eq_some_iff {name : String} {c : Configuration} :
    (ofLists declarations dependencies excludes).configuration? name = some c ↔
      LastDeclared declarations c ∧ c.name = name := by
  induction declarations using List.reverseRecOn with
  | nil =>
    constructor
    · intro h
      rw [configuration?, ofLists, List.foldl_nil, ExtTreeMap.getElem?_empty] at h
      cases h
    · exact fun h => absurd h.1 (not_lastDeclared_nil c)
  | append_singleton declarations last ih =>
    -- the last declaration wins over those of its name, and leaves other names alone
    rw [configuration?_ofLists_concat, lastDeclared_concat_iff]
    split
    · next hname =>
      constructor
      · intro h
        obtain rfl := Option.some.inj h
        exact ⟨.inl rfl, hname⟩
      · rintro ⟨rfl | ⟨hne, -⟩, rfl⟩
        · rfl
        · exact absurd hname hne
    · next hname =>
      rw [ih]
      constructor
      · rintro ⟨h, rfl⟩
        exact ⟨.inr ⟨hname, h⟩, rfl⟩
      · rintro ⟨rfl | ⟨-, h⟩, rfl⟩
        · exact absurd rfl hname
        · exact ⟨h, rfl⟩

/-- In a descriptor a name extends what its last declaration says. -/
theorem extends_ofLists :
    (ofLists declarations dependencies excludes).Extends = ResolutionLog.Extends declarations := by
  funext name parent
  refine propext ?_
  rw [Extends, parents]
  cases h : (ofLists declarations dependencies excludes).configuration? name with
  | none =>
    constructor
    · exact fun hm => absurd hm List.not_mem_nil
    · rintro ⟨c, hc, hname, -⟩
      rw [ofLists_configuration?_eq_some_iff.2 ⟨hc, hname⟩] at h
      cases h
  | some c =>
    obtain ⟨hc, hname⟩ := ofLists_configuration?_eq_some_iff.1 h
    constructor
    · exact fun hm => ⟨c, hc, hname, hm⟩
    · rintro ⟨c', hc', hname', hm⟩
      rw [ofLists_configuration?_eq_some_iff.2 ⟨hc', hname'⟩] at h
      cases h
      exact hm

/-- A descriptor has a configuration of each declared name, and of no other. -/
theorem mem_names_ofLists_iff {name : String} :
    name ∈ (ofLists declarations dependencies excludes).names ↔
      ∃ c ∈ declarations, c.name = name := by
  rw [mem_names, ← exists_lastDeclared_iff, Option.isSome_iff_exists]
  exact exists_congr fun c => ofLists_configuration?_eq_some_iff

end Descriptor

end ResolutionLog
