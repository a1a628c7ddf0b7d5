import ResolutionLog.Descriptor.Include
import ResolutionLog.Identifier

/-! # Configuration mappings

A mapping says which configurations of a dependency's target each configuration of the declaring module
draws in. It is written as segments `source,source->target,target` with semicolons between them; a
segment without an arrow maps each of its names to itself. A source that is written again gains the
targets that it does not have yet.

`targets` follows a mapping: the entry of the source counts, or else that of the wildcard, or else that
of the token for everything. -/

namespace ResolutionLog

/-- For each source, in the order in which the sources were first written, its targets. -/
structure ConfigurationMapping where
  entries : List (String × List String)
deriving DecidableEq, Repr

namespace ConfigurationMapping

/-- A mapping without sources. -/
def empty : ConfigurationMapping := ⟨[]⟩

/-! ## Building -/

/-- A list with those of further names that are not in it yet. -/
def gain (names further : List String) : List String :=
  further.foldl (fun names name => if name ∈ names then names else names ++ [name]) names

/-- Entries in which a source has these targets besides those that it already had. -/
def addTargets (source : String) (targets : List String) :
    List (String × List String) → List (String × List String)
  | [] => [(source, targets)]
  | (name, old) :: rest =>
    if name = source then (name, gain old targets) :: rest
    else (name, old) :: addTargets source targets rest

/-- Map a source to targets. -/
def map (m : ConfigurationMapping) (source : String) (targets : List String) :
    ConfigurationMapping :=
  ⟨addTargets source targets m.entries⟩

/-- The sources, in the order in which they were first written. -/
def sources (m : ConfigurationMapping) : List String := m.entries.map Prod.fst

/-- A new source comes last; a known one stays where it is. -/
theorem sources_map (m : ConfigurationMapping) (source : String) (targets : List String) :
    (m.map source targets).sources =
      if source ∈ m.sources then m.sources else m.sources ++ [source] := by
  obtain ⟨entries⟩ := m
  simp only [map, sources]
  induction entries with
  | nil => simp [addTargets]
  | cons entry rest ih =>
    obtain ⟨name, old⟩ := entry
    by_cases h : name = source
    · simp [addTargets, h]
    · simp only [addTargets, h, if_false, List.map_cons, ih, List.mem_cons]
      simp only [Ne.symm h, false_or]
      split <;> simp [*]

/-! ## Reading the written form -/

/-- The segments of a written mapping that are not blank. -/
def segments (text : String) : List String :=
  ((Text.splitAtEach ';' text).map Text.trim).filter (· ≠ "")

/-- The names of a list with commas between them; none of them may be blank. -/
def names (part text : String) : Except LogError (List String) :=
  (Text.splitAtEach ',' text).mapM fun item => requireText part (Text.trim item)

/-- Map what a segment says. Its targets are checked before its sources. -/
def addSegment (m : ConfigurationMapping) (segment : String) :
    Except LogError ConfigurationMapping := do
  match Text.splitAtFirst? "->" segment with
  | some (sources, targets) =>
    let targets ← names "target configuration" targets
    let sources ← names "source configuration" sources
    return sources.foldl (fun m source => m.map source targets) m
  | none =>
    let sources ← names "source configuration" segment
    return sources.foldl (fun m source => m.map source [source]) m

/-- The mapping with this written form. -/
def parse (text : String) : Except LogError ConfigurationMapping :=
  (segments text).foldlM addSegment empty

/-! ## Following -/

/-- The targets written for a source, if it is one. -/
def entry? (m : ConfigurationMapping) (source : String) : Option (List String) :=
  m.entries.lookup source

/-- The entry that counts for a source: its own, that of the wildcard, or that for everything. -/
def entryFor? (m : ConfigurationMapping) (source : String) : Option (List String) :=
  (m.entry? source).or ((m.entry? wildcard).or (m.entry? allConfigurations))

/-- What a written target stands for: `@` for the source, `#` for the requested configuration, and
everything else for itself. -/
def resolveTarget (source requested : String) : String → String
  | "@" => source
  | "#" => requested
  | target => target

/-- The targets of a source when `requested` is asked for, each once. -/
def targets (m : ConfigurationMapping) (source requested : String) : List String :=
  (((m.entryFor? source).getD []).map (resolveTarget source requested)).eraseDups

end ConfigurationMapping

end ResolutionLog
