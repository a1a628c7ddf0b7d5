import ResolutionLog.Component
import ResolutionLog.Wire.Field

/-! # Node keys in bytes

A component is written as the index of its variant and then its parts, a key as its component and
then its configuration. Reading does not check that the parts are named: a stream may hold keys that
could not be made from outside. Main statement: `NodeKey.take_put_append`. -/

namespace ResolutionLog

open Wire

/-- The bytes of a component. -/
def ComponentId.put : ComponentId → List UInt8
  | .module id =>
    putIndex 0 ++ (putText id.group ++ (putText id.name ++ putText id.version))
  | .project id => putIndex 1 ++ (putText id.build ++ putText id.path)

/-- The component at the front. -/
def ComponentId.take (bytes : List UInt8) : Except WireFault (ComponentId × List UInt8) := do
  let (variant, rest) ← takeIndex bytes
  match variant with
  | 0 =>
    let (group, rest) ← takeText rest
    let (name, rest) ← takeText rest
    let (version, rest) ← takeText rest
    return (.module ⟨group, name, version⟩, rest)
  | 1 =>
    let (build, rest) ← takeText rest
    let (path, rest) ← takeText rest
    return (.project ⟨build, path⟩, rest)
  | _ => throw .unknownVariant

/-- The bytes of a key. -/
def NodeKey.put (key : NodeKey) : List UInt8 := key.component.put ++ putText key.configuration

/-- The key at the front. -/
def NodeKey.take (bytes : List UInt8) : Except WireFault (NodeKey × List UInt8) := do
  let (component, rest) ← ComponentId.take bytes
  let (configuration, rest) ← takeText rest
  return (⟨component, configuration⟩, rest)

/-! ## Round trip -/

/-- All parts of a component fit. -/
def ComponentId.Fits (id : ComponentId) : Prop := ∀ part ∈ id.parts, Wire.Fits part

/-- All parts of a key fit. -/
def NodeKey.Fits (key : NodeKey) : Prop := key.component.Fits ∧ Wire.Fits key.configuration

/-- A component is read back from what was put, whatever follows. -/
theorem ComponentId.take_put_append {id : ComponentId} (h : id.Fits) (rest : List UInt8) :
    ComponentId.take (id.put ++ rest) = .ok (id, rest) := by
  cases id with
  | module id =>
    simp only [Fits, parts, ModuleId.parts, List.mem_cons, List.not_mem_nil, or_false,
      forall_eq_or_imp, forall_eq] at h
    simp only [take, put, List.append_assoc, takeIndex_putIndex_append (n := 0) (by decide), bind,
      Except.bind, pure, Except.pure, takeText_putText_append h.1, takeText_putText_append h.2.1,
      takeText_putText_append h.2.2]
  | project id =>
    simp only [Fits, parts, ProjectId.parts, List.mem_cons, List.not_mem_nil, or_false,
      forall_eq_or_imp, forall_eq] at h
    simp only [take, put, List.append_assoc, takeIndex_putIndex_append (n := 1) (by decide), bind,
      Except.bind, pure, Except.pure, takeText_putText_append h.1, takeText_putText_append h.2]

/-- Keys survive writing and reading. -/
theorem NodeKey.take_put_append {key : NodeKey} (h : key.Fits) (rest : List UInt8) :
    NodeKey.take (key.put ++ rest) = .ok (key, rest) := by
  simp only [take, put, List.append_assoc, ComponentId.take_put_append h.1, bind, Except.bind,
    pure, Except.pure, takeText_putText_append h.2]

end ResolutionLog
