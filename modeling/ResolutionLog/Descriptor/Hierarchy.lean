import ResolutionLog.Descriptor

/-! # Hierarchies

The hierarchy of a configuration is the configuration with everything that it extends, directly or
through others. Hierarchies are kept in a table as they are found, and a kept one is never worked out
again.

A walk up the hierarchy does not enter a configuration that it is still working on: of a cycle it
takes the name only. So a hierarchy that is found in the middle of a walk around a cycle, and kept, can
lack names that are found when the walk starts from it. -/

namespace ResolutionLog

open Std

/-- The hierarchies found so far, by name. -/
abbrev HierarchyTable := ExtTreeMap String NameSet

/-- A set is larger than what is left of it without one of its members. -/
theorem size_erase_lt {names : NameSet} {name : String} (h : name ∈ names) :
    (names.erase name).size < names.size := by
  have hpos : names.size ≠ 0 := fun h0 => by
    rw [← ExtTreeSet.eq_empty_iff_size_eq_zero] at h0
    simp [h0] at h
  rw [ExtTreeSet.size_erase, if_pos (ExtTreeSet.contains_iff_mem.2 h)]
  omega

namespace Descriptor

/-- The hierarchy of `name`, with the table in which it and all that was found for it are kept.
`unvisited` holds the declared configurations that the walk is not working on. -/
def walk (d : Descriptor) (unvisited : NameSet) (name : String) (table : HierarchyTable) :
    NameSet × HierarchyTable :=
  match table[name]? with
  | some found => (found, table)
  | none =>
    let start : NameSet := .ofList [name]
    if h : name ∈ unvisited then
      let rest := unvisited.erase name
      let (hierarchy, table) := (d.parents name).foldl (fun (hierarchy, table) parent =>
        if parent ∈ d.configurations ∧ parent ∉ rest then (hierarchy.insert parent, table)
        else
          let (inherited, table) := d.walk rest parent table
          (hierarchy ∪ inherited, table)) (start, table)
      (hierarchy, table.insert name hierarchy)
    else (start, table.insert name start)
termination_by unvisited.size
decreasing_by exact size_erase_lt h

/-- The hierarchy of a name, with the table in which it is kept. -/
def hierarchy (d : Descriptor) (name : String) (table : HierarchyTable) : NameSet × HierarchyTable :=
  d.walk d.names name table

/-- A kept hierarchy is the answer, and nothing changes. -/
theorem walk_of_kept {d : Descriptor} {name : String} {table : HierarchyTable} {found : NameSet}
    (h : table[name]? = some found) (unvisited : NameSet) :
    d.walk unvisited name table = (found, table) := by
  rw [walk, h]

end Descriptor

end ResolutionLog
