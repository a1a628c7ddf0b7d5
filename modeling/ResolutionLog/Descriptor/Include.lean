import Std.Data.ExtTreeSet

/-! # Which configurations a declaration is for

A declaration lists the configurations that it is for as tokens, which are read from left to right.
`includes` says whether a configuration is among them, given its *hierarchy*: itself and all
configurations that it extends. -/

namespace ResolutionLog

open Std

/-- A set of configuration names, listed in the order of the names. -/
abbrev NameSet := ExtTreeSet String

/-- Sets are equal when they are found equal. -/
instance : LawfulBEq NameSet := inferInstance

/-- The token for every configuration. -/
def allConfigurations : String := "%"

/-- The token for every configuration that is not negated later on. -/
def wildcard : String := "*"

/-- The token that takes a configuration out of an earlier wildcard. -/
def negation (name : String) : String := "!" ++ name

/-- Whether a list of tokens takes in the configuration `name` with this hierarchy. The token for
everything does, and so does each name in the hierarchy; a wildcard does unless the configuration is
negated after it. -/
def includes (name : String) (hierarchy : NameSet) : List String → Bool
  | [] => false
  | token :: later =>
    if token = allConfigurations ∨ token ∈ hierarchy then true
    else if token = wildcard ∧ negation name ∉ later then true
    else includes name hierarchy later

/-- No tokens name nothing. -/
@[simp] theorem includes_nil (name : String) (hierarchy : NameSet) :
    includes name hierarchy [] = false := rfl

/-- The token for everything decides at once. -/
@[simp] theorem includes_cons_all (name : String) (hierarchy : NameSet) (later : List String) :
    includes name hierarchy (allConfigurations :: later) = true := by simp [includes]

/-- A name in the hierarchy decides at once. -/
theorem includes_cons_of_mem {name token : String} {hierarchy : NameSet} (h : token ∈ hierarchy)
    (later : List String) : includes name hierarchy (token :: later) = true := by
  simp [includes, h]

/-- A wildcard decides unless the negation follows. -/
theorem includes_cons_wildcard {name : String} {hierarchy : NameSet} {later : List String}
    (h : negation name ∉ later) : includes name hierarchy (wildcard :: later) = true := by
  simp [includes, h]

/-- What takes in a configuration still does so with further tokens in front. -/
theorem includes_cons_of_includes {name : String} {hierarchy : NameSet} {later : List String}
    (h : includes name hierarchy later = true) (token : String) :
    includes name hierarchy (token :: later) = true := by
  rw [includes]
  split
  · rfl
  · split
    · rfl
    · exact h

end ResolutionLog
