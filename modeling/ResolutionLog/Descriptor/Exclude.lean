import ResolutionLog.Descriptor.Include
import ResolutionLog.Identifier

/-! # Exclude rules

A rule keeps modules out of the configurations in its scope. Of a list of rules those count whose
scope meets the hierarchy of a configuration, each once, in the order of the list. -/

namespace ResolutionLog

open Std

/-- A rule that excludes modules by group and name; a wildcard stands for any. -/
structure ExcludeRule where
  group : String
  name : String
  /-- The configurations in which the rule counts. -/
  scope : NameSet
deriving DecidableEq

namespace ExcludeRule

/-- The rule for this group and name in this scope. -/
def checked (group name : String) (scope : List String) : Except LogError ExcludeRule := do
  let group ← requireText "exclude group" group
  let name ← requireText "exclude module" name
  return ⟨group, name, .ofList scope⟩

/-- A rule counts where its scope and the hierarchy share a configuration. -/
def appliesTo (rule : ExcludeRule) (hierarchy : NameSet) : Bool :=
  rule.scope.toList.any fun name => name ∈ hierarchy

/-- Whether a part of a rule stands for a text. -/
def partMatches (part text : String) : Bool := part = wildcard ∨ part = text

/-- A rule excludes a module of its group and name, in whatever version. -/
def excludes (rule : ExcludeRule) (id : ModuleId) : Bool :=
  partMatches rule.group id.group && partMatches rule.name id.name

/-- Whether a rule counts is a matter of the two sets alone. -/
theorem appliesTo_iff {rule : ExcludeRule} {hierarchy : NameSet} :
    rule.appliesTo hierarchy = true ↔ ∃ name ∈ rule.scope, name ∈ hierarchy := by
  simp [appliesTo]

/-- Rules are ordered by group, then name, then scope. -/
instance : Ord ExcludeRule :=
  ⟨compareLex (compareOn group) (compareLex (compareOn name) (compareOn (ExtTreeSet.toList ∘ scope)))⟩

instance : TransOrd ExcludeRule :=
  inferInstanceAs (TransCmp (compareLex (compareOn group)
    (compareLex (compareOn name) (compareOn (ExtTreeSet.toList ∘ scope)))))

end ExcludeRule

/-- The rules that count in a hierarchy, in order and without repeats. -/
def excludesInScope (rules : List ExcludeRule) (hierarchy : NameSet) : List ExcludeRule :=
  (rules.filter fun rule => rule.appliesTo hierarchy).eraseDups

/-- The rules in scope are those of the list that apply. -/
@[simp] theorem mem_excludesInScope {rules : List ExcludeRule} {hierarchy : NameSet}
    {rule : ExcludeRule} :
    rule ∈ excludesInScope rules hierarchy ↔ rule ∈ rules ∧ rule.appliesTo hierarchy = true := by
  simp [excludesInScope, List.mem_eraseDups]

end ResolutionLog
