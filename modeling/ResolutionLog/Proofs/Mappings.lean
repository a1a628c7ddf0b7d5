import ResolutionLog.Descriptor.Mapping
import ResolutionLog.Proofs.Attempts
import ResolutionLog.Proofs.Repeats

/-! # What a written mapping means

A mapping is read segment by segment, and a source that is written again has its further targets added to those that
it already has, so what is kept for a source is neither a segment nor all of them. What is looked up is nevertheless
what one finds by going through the text from left to right and taking the targets of the source wherever it stands:
only repeats are lost on the way, and these do not count in the end.

`ConfigurationMapping.Clause` is a segment as it is written. What is kept of some pairs of a source and its targets is
said by `ConfigurationMapping.Gathers`, which each further pair preserves. Main statement:
`ConfigurationMapping.targets_of_parse`. -/

namespace ResolutionLog

namespace ConfigurationMapping

/-! ## The written form -/

/-- The items of a list with commas between them. -/
def items (text : String) : List String := (Text.splitAtEach ',' text).map Text.trim

/-- A segment as it is written: its sources, and its targets if it has an arrow. -/
structure Clause where
  sources : List String
  targets : Option (List String)
deriving DecidableEq, Repr

namespace Clause

/-- What a segment says: the first arrow in it counts. -/
def ofSegment (segment : String) : Clause :=
  match Text.splitAtFirst? "->" segment with
  | some (sources, targets) => ⟨items sources, some (items targets)⟩
  | none => ⟨items segment, none⟩

/-- All items of a segment, on either side of the arrow. -/
def items (c : Clause) : List String := c.sources ++ c.targets.getD []

/-- The targets that a segment gives to one of its sources: without an arrow, the source itself. -/
def targetsOf (c : Clause) (source : String) : List String := c.targets.getD [source]

/-- The sources of a segment, each with its targets. -/
def pairs (c : Clause) : List (String × List String) := c.sources.map fun source => (source, c.targetsOf source)

end Clause

/-- The segments of a written mapping. -/
def clauses (text : String) : List Clause := (segments text).map .ofSegment

/-- The targets that some segments give to a source, wherever it stands in them. -/
def targetsIn (clauses : List Clause) (source : String) : List String :=
  clauses.flatMap fun c => (c.sources.filter (· = source)).flatMap c.targetsOf

/-! ## Reading -/

/-- A mapping to which each of some sources has been mapped to its targets. -/
def mapAll (m : ConfigurationMapping) (pairs : List (String × List String)) : ConfigurationMapping :=
  pairs.foldl (fun m pair => m.map pair.1 pair.2) m

/-- Names in a list are accepted when none of them is blank. -/
theorem names_eq_ok_iff {part text : String} {l : List String} :
    names part text = .ok l ↔ (∀ item ∈ items text, Text.isBlank item = false) ∧ l = items text := by
  have hitem : ∀ item name, requireText part (Text.trim item) = .ok name ↔
      Text.isBlank (Text.trim item) = false ∧ name = Text.trim item :=
    fun item name => requireText_eq_ok_iff.trans and_comm
  rw [names, mapM_eq_ok_map_iff hitem]
  simp only [items, List.forall_mem_map]

/-- A segment is added when none of its items is blank. -/
theorem addSegment_eq_ok_iff {m m' : ConfigurationMapping} {segment : String} :
    addSegment m segment = .ok m' ↔
      (∀ item ∈ (Clause.ofSegment segment).items, Text.isBlank item = false) ∧
        m' = m.mapAll (Clause.ofSegment segment).pairs := by
  unfold addSegment Clause.ofSegment
  -- the targets are looked at before the sources, but both are needed
  cases Text.splitAtFirst? "->" segment with
  | some sides =>
    obtain ⟨sources, targets⟩ := sides
    simp only [bind_eq_ok_iff, names_eq_ok_iff, pure, Except.pure, Except.ok.injEq, Clause.items, Clause.pairs,
      Clause.targetsOf, mapAll, List.foldl_map, Option.getD_some, List.forall_mem_append]
    constructor
    · rintro ⟨_, ⟨htargets, rfl⟩, _, ⟨hsources, rfl⟩, rfl⟩
      exact ⟨⟨hsources, htargets⟩, rfl⟩
    · rintro ⟨⟨hsources, htargets⟩, rfl⟩
      exact ⟨_, ⟨htargets, rfl⟩, _, ⟨hsources, rfl⟩, rfl⟩
  | none =>
    simp only [bind_eq_ok_iff, names_eq_ok_iff, pure, Except.pure, Except.ok.injEq, Clause.items, Clause.pairs,
      Clause.targetsOf, mapAll, List.foldl_map, Option.getD_none, List.append_nil]
    constructor
    · rintro ⟨_, ⟨hsources, rfl⟩, rfl⟩
      exact ⟨hsources, rfl⟩
    · rintro ⟨hsources, rfl⟩
      exact ⟨_, ⟨hsources, rfl⟩, rfl⟩

/-- **A mapping is read** when no item of it is blank, and then its sources are mapped to their targets one after
the other. -/
theorem parse_eq_ok_iff {text : String} {m : ConfigurationMapping} :
    parse text = .ok m ↔
      (∀ c ∈ clauses text, ∀ item ∈ c.items, Text.isBlank item = false) ∧
        m = empty.mapAll ((clauses text).flatMap Clause.pairs) := by
  have hadd : ∀ (m : ConfigurationMapping) (segment : String) (m' : ConfigurationMapping),
      addSegment m segment = .ok m' ↔ _ := fun _ _ _ => addSegment_eq_ok_iff
  rw [parse, foldlM_eq_ok_foldl_iff hadd, clauses, List.forall_mem_map, mapAll,
    List.flatMap_map, List.foldl_flatMap]
  rfl

/-! ## Gathering -/

/-- The targets that some pairs give to a source. -/
def gathered (pairs : List (String × List String)) (source : String) : List String :=
  (pairs.filter fun pair => pair.1 = source).flatMap Prod.snd

/-- **A mapping gathers some pairs**: it has their sources, and its targets for a source are those in the pairs with
that source, in their order and but for repeats, whatever is put in the place of the targets. -/
structure Gathers (m : ConfigurationMapping) (pairs : List (String × List String)) : Prop where
  isSome_iff : ∀ source, (m.entry? source).isSome ↔ source ∈ pairs.map Prod.fst
  eraseDups_eq : ∀ (source : String) (f : String → String),
    (((m.entry? source).getD []).map f).eraseDups = ((gathered pairs source).map f).eraseDups

/-- Names that are gained are not those that are there, but for repeats they come behind them. -/
theorem eraseDups_map_gain (f : String → String) (names further : List String) :
    ((gain names further).map f).eraseDups = ((names ++ further).map f).eraseDups := by
  induction further generalizing names with
  | nil => rw [gain, List.foldl_nil, List.append_nil]
  | cons name further ih =>
    have hnext : gain names (name :: further) = gain (if name ∈ names then names else names ++ [name]) further := rfl
    have hfirst : ((if name ∈ names then names else names ++ [name]).map f).eraseDups =
        ((names ++ [name]).map f).eraseDups := by
      split
      · next hm =>
        rw [List.map_append, List.map_singleton, eraseDups_concat,
          if_pos (List.mem_eraseDups.2 (List.mem_map_of_mem hm))]
      · rfl
    have hsplit : names ++ name :: further = (names ++ [name]) ++ further := List.append_cons names name further
    rw [hnext, ih, hsplit, List.map_append, List.map_append]
    exact eraseDups_append_congr hfirst _

/-- The first entry of a name counts. -/
theorem entry?_cons (first : String) (old : List String) (entries : List (String × List String)) (name : String) :
    entry? ⟨(first, old) :: entries⟩ name = if name = first then some old else entry? ⟨entries⟩ name := by
  unfold entry?
  rw [List.lookup_cons]
  by_cases hname : name = first
  · rw [if_pos hname, beq_iff_eq.2 hname]
  · rw [if_neg hname, beq_eq_false_iff_ne.2 hname]

/-- A source that is mapped gains targets, or gets its first ones, and other sources keep theirs. -/
theorem entry?_map (m : ConfigurationMapping) (source : String) (targets : List String) (name : String) :
    entry? (m.map source targets) name =
      if name = source then
        some (match m.entry? source with
          | some old => gain old targets
          | none => targets)
      else m.entry? name := by
  obtain ⟨entries⟩ := m
  rw [map]
  induction entries with
  | nil =>
    rw [addTargets, entry?_cons]
    rfl
  | cons entry entries ih =>
    obtain ⟨first, old⟩ := entry
    by_cases hfirst : first = source
    · subst hfirst
      simp only [addTargets, if_pos, entry?_cons]
      split <;> rfl
    · have hother : source ≠ first := Ne.symm hfirst
      simp only [addTargets, if_neg hfirst, entry?_cons, ih, if_neg hother]
      by_cases hname : name = first
      · rw [if_pos hname, if_neg (hname ▸ hfirst), if_pos hname]
      · rw [if_neg hname, if_neg hname]

/-- An empty mapping has gathered nothing. -/
theorem gathers_empty : empty.Gathers [] := by
  constructor
  · intro source
    unfold entry?
    simp [empty]
  · exact fun source f => rfl

/-- A last pair adds its targets to those of its source. -/
theorem gathered_concat (pairs : List (String × List String)) (source : String) (targets : List String)
    (name : String) : gathered (pairs ++ [(source, targets)]) name =
      if name = source then gathered pairs name ++ targets else gathered pairs name := by
  rw [gathered, List.filter_append, List.flatMap_append]
  by_cases hname : name = source
  · simp [gathered, hname]
  · simp [gathered, hname, Ne.symm hname]

/-- **One more pair** is gathered when its source is mapped to its targets. -/
theorem Gathers.map {m : ConfigurationMapping} {pairs : List (String × List String)} (h : m.Gathers pairs)
    (source : String) (targets : List String) :
    (m.map source targets).Gathers (pairs ++ [(source, targets)]) := by
  constructor
  · intro name
    rw [entry?_map, List.map_append, List.mem_append, ← h.isSome_iff]
    by_cases hname : name = source <;> simp [hname]
  · intro name f
    rw [entry?_map, gathered_concat]
    by_cases hname : name = source
    · subst hname
      have hold := h.eraseDups_eq name f
      rw [if_pos rfl, if_pos rfl, Option.getD_some, List.map_append, ← eraseDups_append_congr hold]
      cases hentry : m.entry? name with
      | none => rfl
      | some old => rw [Option.getD_some, eraseDups_map_gain, List.map_append]
    · rw [if_neg hname, if_neg hname]
      exact h.eraseDups_eq name f

/-- **All pairs** are gathered by mapping them one after the other. -/
theorem gathers_mapAll (pairs : List (String × List String)) : (empty.mapAll pairs).Gathers pairs := by
  induction pairs using List.reverseRecOn with
  | nil => exact gathers_empty
  | append_singleton pairs pair ih =>
    have hlast : empty.mapAll (pairs ++ [pair]) = (empty.mapAll pairs).map pair.1 pair.2 := by
      rw [mapAll, List.foldl_append]
      rfl
    rw [hlast]
    exact ih.map pair.1 pair.2

/-! ## Looking up -/

/-- The pairs of some segments give a source the targets that the segments give it. -/
theorem gathered_pairs (clauses : List Clause) (source : String) :
    gathered (clauses.flatMap Clause.pairs) source = targetsIn clauses source := by
  rw [gathered, targetsIn, List.filter_flatMap, List.flatMap_assoc]
  congr 1
  funext c
  rw [Clause.pairs, List.filter_map, List.flatMap_map]
  rfl

/-- What the two special targets stand for. -/
theorem resolveTarget_eq (source requested target : String) :
    resolveTarget source requested target =
      if target = "@" then source else if target = "#" then requested else target := by
  unfold resolveTarget
  split <;> simp_all

/-- The entry that counts for a source is that of the first of three names that has one. -/
theorem entryFor?_eq_bind (m : ConfigurationMapping) (source : String) :
    m.entryFor? source =
      ([source, wildcard, allConfigurations].find? fun name => (m.entry? name).isSome).bind m.entry? := by
  rw [entryFor?]
  cases hown : m.entry? source with
  | some targets => simp [hown]
  | none =>
    cases hwild : m.entry? wildcard with
    | some targets => simp [hown, hwild]
    | none => cases hall : m.entry? allConfigurations <;> simp [hown, hwild, hall]

/-- The sources of some segments are those of their pairs. -/
theorem map_fst_pairs (clauses : List Clause) :
    (clauses.flatMap Clause.pairs).map Prod.fst = clauses.flatMap Clause.sources := by
  rw [List.map_flatMap]
  congr 1
  funext c
  rw [Clause.pairs, List.map_map]
  exact List.map_id _

/-- **What a written mapping means**: it is read when no item on either side of an arrow is blank. Then a source is
looked up under its own name if this is a source somewhere in the text, or else under the wildcard, or else under the
token for everything; what it draws in are the targets that the text gives to this name, wherever it stands as a
source, in the order of the text, each once: with the source in the place of `@` and the requested configuration in
that of `#`. If none of the three names is a source, nothing is drawn in. -/
theorem targets_of_parse (text : String) :
    ((∃ m, parse text = .ok m) ↔ ∀ c ∈ clauses text, ∀ item ∈ c.items, Text.isBlank item = false) ∧
    ∀ m, parse text = .ok m → ∀ source requested,
      m.targets source requested =
        match [source, wildcard, allConfigurations].find? (· ∈ (clauses text).flatMap Clause.sources) with
        | none => []
        | some key => ((targetsIn (clauses text) key).map fun target =>
            if target = "@" then source else if target = "#" then requested else target).eraseDups := by
  constructor
  · simp only [parse_eq_ok_iff, exists_and_left, exists_eq, and_true]
  · intro m h source requested
    obtain ⟨-, rfl⟩ := parse_eq_ok_iff.1 h
    have hgathers := gathers_mapAll ((clauses text).flatMap Clause.pairs)
    -- an entry of the mapping is a source of the text
    have hfound : (fun name => Option.isSome ( entry? (empty.mapAll ((clauses text).flatMap Clause.pairs)) name)) =
        fun name => decide (name ∈ (clauses text).flatMap Clause.sources) := by
      funext name
      rw [Bool.eq_iff_iff, decide_eq_true_iff, hgathers.isSome_iff, map_fst_pairs]
    have hplace : resolveTarget source requested = fun target =>
        if target = "@" then source else if target = "#" then requested else target := by
      funext target
      exact resolveTarget_eq source requested target
    rw [targets, entryFor?_eq_bind, hfound, hplace]
    cases [source, wildcard, allConfigurations].find? (· ∈ (clauses text).flatMap Clause.sources) with
    | none => rfl
    | some key =>
      rw [Option.bind_some, hgathers.eraseDups_eq, gathered_pairs]

/-- The wildcard is written twice, with a target that is repeated at once and with one that becomes a repeat when it
is looked up; another source is mapped to itself. -/
theorem targets_of_parse_sample :
    ∃ m, parse "* -> @, a, a; b ;; *->#,b" = .ok m ∧ m.targets "c" "a" = ["c", "a", "b"] ∧
      m.targets "b" "a" = ["b"] := by
  obtain ⟨hiff, htargets⟩ := targets_of_parse "* -> @, a, a; b ;; *->#,b"
  obtain ⟨m, hm⟩ := hiff.2 (by decide +kernel)
  refine ⟨m, hm, ?_, ?_⟩
  · rw [htargets m hm]
    decide +kernel
  · rw [htargets m hm]
    decide +kernel

end ConfigurationMapping

end ResolutionLog
