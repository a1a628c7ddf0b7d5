import ResolutionLog.Materialize
import ResolutionLog.Store

/-! # The cache

A cache turns a sealed store into a graph when it is first asked for, keeps the graph, and lets the
store go. A load that fails keeps nothing and leaves the store open, so that another load may try
again. When the look-ups of a load give up while it holds the cache, the cache is poisoned and serves
nothing any more. Loads happen one after the other, whoever asks for them. -/

namespace ResolutionLog

/-- A sealed store with the graph that was made of it. -/
structure ResultCache where
  handle : ReadHandle
  graph? : Option Graph
  /-- Whether a load was abandoned while it held the cache. -/
  poisoned : Bool
deriving DecidableEq

namespace ResultCache

/-- A cache that has loaded nothing. -/
def ofHandle (handle : ReadHandle) : ResultCache := ⟨handle, none, false⟩

/-- The graph of the store, read from it with the given contents, and the handle after that. -/
def decode (c : ResultCache) (contents : Contents) : Except LogError Graph × ReadHandle :=
  c.handle.read fun source =>
    let (result, reader) := materialize contents source
    (result, reader.source)

/-- The graph: the one that is kept, or else the one that the store gives with these contents. -/
def load (c : ResultCache) (contents : Contents) : Except LogError Graph × ResultCache :=
  if c.poisoned then (.error .cachePoisoned, c)
  else
    match c.graph? with
    | some graph => (.ok graph, c)
    | none =>
      match c.decode contents with
      | (.ok graph, handle) => (.ok graph, ⟨handle.close, some graph, false⟩)
      | (.error .lookupAborted, handle) => (.error .lookupAborted, ⟨handle, none, true⟩)
      | (.error e, handle) => (.error e, ⟨handle, none, false⟩)

/-- Whether a graph is kept. -/
def isLoaded (c : ResultCache) : Bool := c.graph?.isSome

/-- The visible state of a cache, for diagnosis. -/
def display (c : ResultCache) : String := s!"ResultCache \x7b loaded: {c.isLoaded}, .. \x7d"

/-- A kept graph is served, whatever the contents, and nothing changes. -/
theorem load_of_graph {c : ResultCache} {graph : Graph} (hp : c.poisoned = false)
    (hg : c.graph? = some graph) (contents : Contents) : c.load contents = (.ok graph, c) := by
  simp [load, hp, hg]

/-- A poisoned cache serves nothing, and nothing changes. -/
theorem load_of_poisoned {c : ResultCache} (hp : c.poisoned = true) (contents : Contents) :
    c.load contents = (.error .cachePoisoned, c) := by
  simp [load, hp]

end ResultCache

end ResolutionLog
