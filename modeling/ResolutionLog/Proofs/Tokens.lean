import ResolutionLog.Descriptor.Dependency
import ResolutionLog.Proofs.Mappings

/-! # Tokens that are written again

Whether a dependency is for a configuration depends on the places of the tokens: a wildcard takes the configuration
in unless this is negated behind it (`includes_iff`), and of several wildcards the last one decides
(`includes_iff_last_wildcard`). A mapping has each of its sources once, where it first stands in the text, and that is
what the dependency is asked with: of a token that is written again, later places do not count.

Where this shows is said by `Dependency.includedIn_of_parse`. It needs a wildcard and a negation that come for the
last time in another order than for the first time (`SameOrder`), and no token that decides by itself. -/

namespace ResolutionLog

/-! ## Places in a list -/

section Places

variable {α : Type} {a b : α} {l : List α}

/-- Behind one of the places of `a` there is no `b`. -/
def Outlasts (a b : α) (l : List α) : Prop := ∃ before after, l = before ++ a :: after ∧ b ∉ after

/-- What outlasts something occurs. -/
theorem Outlasts.mem (h : Outlasts a b l) : a ∈ l := by
  obtain ⟨before, after, rfl, -⟩ := h
  exact List.mem_append_right before List.mem_cons_self

/-- Nothing outlasts anything in an empty list. -/
theorem not_outlasts_nil : ¬Outlasts a b [] := fun h => absurd h.mem List.not_mem_nil

/-- The first place counts if nothing stands against it; otherwise the later ones do. -/
theorem outlasts_cons_iff {c : α} : Outlasts a b (c :: l) ↔ c = a ∧ b ∉ l ∨ Outlasts a b l := by
  constructor
  · rintro ⟨before, after, h, hafter⟩
    cases before with
    | nil =>
      obtain ⟨rfl, rfl⟩ := List.cons.inj h
      exact .inl ⟨rfl, hafter⟩
    | cons first before =>
      obtain ⟨-, rfl⟩ := List.cons.inj h
      exact .inr ⟨before, after, rfl, hafter⟩
  · rintro (⟨rfl, hnot⟩ | ⟨before, after, rfl, hafter⟩)
    · exact ⟨[], l, rfl, hnot⟩
    · exact ⟨c :: before, after, rfl, hafter⟩

/-- What occurs outlasts what does not. -/
theorem outlasts_of_not_mem (ha : a ∈ l) (hb : b ∉ l) : Outlasts a b l := by
  obtain ⟨before, after, rfl⟩ := List.append_of_mem ha
  exact ⟨before, after, rfl, fun hm => hb (List.mem_append_right before (List.mem_cons_of_mem a hm))⟩

/-- If no `b` stands behind one of the places of `a`, then none stands behind the last of them. -/
theorem outlasts_iff_last :
    Outlasts a b l ↔ ∃ before after, l = before ++ a :: after ∧ a ∉ after ∧ b ∉ after := by
  constructor
  · intro h
    induction l with
    | nil => exact absurd h not_outlasts_nil
    | cons c l ih =>
      by_cases hlater : Outlasts a b l
      · obtain ⟨before, after, rfl, hafter⟩ := ih hlater
        exact ⟨c :: before, after, rfl, hafter⟩
      · -- the first place is the only one, since a later one would count too
        obtain ⟨rfl, hb⟩ := (outlasts_cons_iff.1 h).resolve_right hlater
        exact ⟨[], l, rfl, fun ha => hlater (outlasts_of_not_mem ha hb), hb⟩
  · rintro ⟨before, after, h, -, hb⟩
    exact ⟨before, after, h, hb⟩

variable [DecidableEq α]

/-- Two members of a list come for the first time in the order in which they come for the last time. -/
def SameOrder (a b : α) (l : List α) : Prop := l.idxOf a < l.idxOf b ↔ l.reverse.idxOf b < l.reverse.idxOf a

/-- What has no `b` behind it comes, from the end, before all of them. -/
theorem outlasts_iff_idxOf_reverse (hne : a ≠ b) :
    Outlasts a b l ↔ l.reverse.idxOf a < l.reverse.idxOf b := by
  constructor
  · rintro ⟨before, after, rfl, hafter⟩
    have hlast : b ∉ after.reverse := mt List.mem_reverse.1 hafter
    rw [List.reverse_append, List.reverse_cons, List.append_assoc, List.singleton_append,
      List.idxOf_append_of_notMem hlast, List.idxOf_cons_ne _ hne]
    by_cases ha : a ∈ after.reverse
    · rw [List.idxOf_append_of_mem ha]
      have hlt := List.idxOf_lt_length_of_mem ha
      omega
    · rw [List.idxOf_append_of_notMem ha, List.idxOf_cons_self]
      omega
  · intro h
    have hmem : a ∈ l.reverse := List.idxOf_lt_length_iff.1 (Nat.lt_of_lt_of_le h List.idxOf_le_length)
    obtain ⟨after, before, hsplit, hfirst⟩ := List.eq_append_cons_of_mem hmem
    refine ⟨before.reverse, after.reverse, ?_, fun hb => ?_⟩
    · rw [← List.reverse_reverse l, hsplit, List.reverse_append, List.reverse_cons, List.append_assoc,
        List.singleton_append]
    · -- a place behind the last one of `a` would come first from the end
      rw [List.mem_reverse] at hb
      rw [hsplit, List.idxOf_append_of_mem hb, List.idxOf_append_of_notMem hfirst] at h
      have hlt := List.idxOf_lt_length_of_mem hb
      omega

/-- Without repeats it is the first places that count. -/
theorem outlasts_eraseDups_iff (hne : a ≠ b) :
    Outlasts a b l.eraseDups ↔ a ∈ l ∧ (b ∈ l → l.idxOf b < l.idxOf a) := by
  -- the places in `l.eraseDups` are in the order of the first places in `l`
  have hordered := pairwise_idxOf_eraseDups l
  constructor
  · intro h
    refine ⟨List.mem_eraseDups.1 h.mem, fun hb => ?_⟩
    obtain ⟨before, after, hsplit, hafter⟩ := h
    have hb' : b ∈ before ++ a :: after := hsplit ▸ List.mem_eraseDups.2 hb
    have hbefore : b ∈ before := by
      rcases List.mem_append.1 hb' with hm | hm
      · exact hm
      · exact absurd ((List.mem_cons.1 hm).resolve_left (Ne.symm hne)) hafter
    rw [hsplit, List.pairwise_append] at hordered
    exact hordered.2.2 b hbefore a List.mem_cons_self
  · rintro ⟨ha, hearlier⟩
    obtain ⟨before, after, hsplit⟩ := List.append_of_mem (List.mem_eraseDups.2 ha)
    refine ⟨before, after, hsplit, fun hb => ?_⟩
    have hb' : b ∈ l.eraseDups := hsplit ▸ List.mem_append_right before (List.mem_cons_of_mem a hb)
    rw [hsplit, List.pairwise_append, List.pairwise_cons] at hordered
    exact Nat.lt_asymm (hearlier (List.mem_eraseDups.1 hb')) (hordered.2.1.1 b hb)

/-- **What the repeats of a list decide**: nothing if one of the two is missing, or if they come for the first time
in the order in which they come for the last time. -/
theorem outlasts_eraseDups_iff_outlasts (hne : a ≠ b) :
    (Outlasts a b l.eraseDups ↔ Outlasts a b l) ↔ a ∉ l ∨ b ∉ l ∨ SameOrder a b l := by
  rw [outlasts_eraseDups_iff hne]
  by_cases ha : a ∈ l
  · by_cases hb : b ∈ l
    · -- one of them comes first, and one comes last
      have hfirst : l.idxOf a ≠ l.idxOf b := mt (List.idxOf_inj ha).1 hne
      have hlast : l.reverse.idxOf a ≠ l.reverse.idxOf b := mt (List.idxOf_inj (List.mem_reverse.2 ha)).1 hne
      simp only [ha, hb, outlasts_iff_idxOf_reverse hne, SameOrder, false_or, true_and, true_imp_iff,
        not_true_eq_false]
      omega
    · simp only [ha, hb, outlasts_of_not_mem ha hb, false_imp_iff, and_self, not_false_eq_true, true_or, or_true]
  · simp only [ha, mt Outlasts.mem ha, false_and, not_false_eq_true, true_or]

end Places

/-! ## Wildcards and negations -/

/-- The token for the rest is no negation. -/
theorem wildcard_ne_negation (name : String) : wildcard ≠ negation name := by
  intro h
  have hchars := congrArg String.toList h
  rw [wildcard, negation, String.toList_append] at hchars
  exact absurd (List.cons.inj hchars).1 (by decide)

/-- **Which tokens take in a configuration**: one that does so by itself, or a wildcard behind which the
configuration is not negated. -/
theorem includes_iff {name : String} {hierarchy : NameSet} {tokens : List String} :
    includes name hierarchy tokens = true ↔
      (∃ token ∈ tokens, token = allConfigurations ∨ token ∈ hierarchy) ∨
        Outlasts wildcard (negation name) tokens := by
  induction tokens with
  | nil => simp [not_outlasts_nil]
  | cons token later ih =>
    rw [outlasts_cons_iff, List.exists_mem_cons_iff, includes]
    -- the order of the cases is that of the questions `includes` asks about the first token
    by_cases hdecides : token = allConfigurations ∨ token ∈ hierarchy
    · simp [hdecides]
    · by_cases hwild : token = wildcard ∧ negation name ∉ later
      · simp [hwild]
      · simp only [hdecides, hwild, if_false, false_or, ih]

/-- **Which tokens take in a configuration, by the last wildcard**: the token for everything, each name of the
hierarchy, or a wildcard, if the configuration is not negated behind the last one. Where these tokens stand otherwise,
and what stands behind the earlier wildcards, does not matter. -/
theorem includes_iff_last_wildcard (name : String) (hierarchy : NameSet) (tokens : List String) :
    includes name hierarchy tokens = true ↔
      allConfigurations ∈ tokens ∨ (∃ token ∈ tokens, token ∈ hierarchy) ∨
        ∃ before after, tokens = before ++ wildcard :: after ∧ wildcard ∉ after ∧ negation name ∉ after := by
  have hdecides : (∃ token ∈ tokens, token = allConfigurations ∨ token ∈ hierarchy) ↔
      allConfigurations ∈ tokens ∨ ∃ token ∈ tokens, token ∈ hierarchy := by
    simp only [and_or_left, exists_or, exists_eq_right]
  rw [includes_iff, outlasts_iff_last, hdecides, or_assoc]

/-- Behind the first wildcard both configurations are negated, behind the last one only one of them. -/
example : includes "run" (.ofList ["run"]) ["*", "!run", "!test", "*", "!test"] = true ∧
    includes "test" (.ofList ["test"]) ["*", "!run", "!test", "*", "!test"] = false := by decide +kernel

/-! ## The tokens of a mapping -/

namespace ConfigurationMapping

/-- The sources of a written mapping, wherever they stand in the text. -/
def tokens (text : String) : List String := (clauses text).flatMap Clause.sources

/-- The sources of a mapping are those of the pairs that it was made of, without their repeats. -/
theorem sources_mapAll (pairs : List (String × List String)) :
    (empty.mapAll pairs).sources = (pairs.map Prod.fst).eraseDups := by
  induction pairs using List.reverseRecOn with
  | nil => rfl
  | append_singleton pairs pair ih =>
    have hlast : empty.mapAll (pairs ++ [pair]) = (empty.mapAll pairs).map pair.1 pair.2 := by
      rw [mapAll, List.foldl_append]
      rfl
    rw [hlast, sources_map, ih, List.map_append, List.map_singleton, eraseDups_concat]

/-- **A mapping has each token of its text once**, in the place where it first stands. -/
theorem sources_of_parse {text : String} {m : ConfigurationMapping} (h : parse text = .ok m) :
    m.sources = (tokens text).eraseDups := by
  obtain ⟨-, rfl⟩ := parse_eq_ok_iff.1 h
  rw [sources_mapAll, map_fst_pairs, tokens]

end ConfigurationMapping

open ConfigurationMapping in
/-- **For which configurations a dependency is**, by the text of its mapping: each token counts in the place where it
first stands. This is what the whole list says, with all its repeats, in every case but one: no token is `%` or a
name of the hierarchy, and the wildcard and the negation of the configuration come for the last time in another order
than for the first time. -/
theorem Dependency.includedIn_of_parse {text : String} {d : Dependency} (h : parse text = .ok d.mapping)
    (name : String) (hierarchy : NameSet) :
    d.includedIn name hierarchy = includes name hierarchy (tokens text).eraseDups ∧
    (d.includedIn name hierarchy = includes name hierarchy (tokens text) ↔
      (∃ token ∈ tokens text, token = allConfigurations ∨ token ∈ hierarchy) ∨ wildcard ∉ tokens text ∨
        negation name ∉ tokens text ∨ SameOrder wildcard (negation name) (tokens text)) := by
  have honce : d.includedIn name hierarchy = includes name hierarchy (tokens text).eraseDups := by
    rw [includedIn, sources_of_parse h]
  refine ⟨honce, ?_⟩
  rw [honce, Bool.eq_iff_iff, includes_iff, includes_iff]
  simp only [List.mem_eraseDups]
  by_cases hdecides : ∃ token ∈ tokens text, token = allConfigurations ∨ token ∈ hierarchy
  · simp only [hdecides, true_or]
  · simp only [hdecides, false_or]
    exact outlasts_eraseDups_iff_outlasts (wildcard_ne_negation name)

/-- A wildcard that is written again behind a negation. -/
def Sample.again : Dependency := .declare (.build ":lib") ⟨[("*", ["a", "c"]), ("!test", ["b"])]⟩

/-- For one configuration the repeated wildcard does not count; for all others nothing is lost with it. -/
theorem Dependency.includedIn_of_parse_sample :
    ConfigurationMapping.parse "*->a;!test->b;*->c" = .ok Sample.again.mapping ∧
      Sample.again.includedIn "test" (.ofList ["test"]) = false ∧
      Sample.again.includedIn "run" (.ofList ["run"]) =
        includes "run" (.ofList ["run"]) (ConfigurationMapping.tokens "*->a;!test->b;*->c") := by
  have hread : ConfigurationMapping.parse "*->a;!test->b;*->c" = .ok Sample.again.mapping := by decide +kernel
  obtain ⟨honce, -⟩ := includedIn_of_parse hread "test" (.ofList ["test"])
  obtain ⟨-, hsame⟩ := includedIn_of_parse hread "run" (.ofList ["run"])
  refine ⟨hread, ?_, hsame.2 (.inr (.inr (.inl (by decide +kernel))))⟩
  rw [honce]
  decide +kernel

/-- **Repeats can decide**: the wildcard behind the negation takes the configuration in, and the dependency does
not. -/
theorem Dependency.not_forall_includedIn_eq :
    ¬∀ (text : String) (d : Dependency) (name : String) (hierarchy : NameSet),
      ConfigurationMapping.parse text = .ok d.mapping →
      d.includedIn name hierarchy = includes name hierarchy (ConfigurationMapping.tokens text) := by
  intro h
  have hread : ConfigurationMapping.parse "*->a;!test->b;*->c" = .ok Sample.again.mapping := by decide +kernel
  have hleft : Sample.again.includedIn "test" (.ofList ["test"]) = false := by decide +kernel
  have hwritten : includes "test" (.ofList ["test"]) (ConfigurationMapping.tokens "*->a;!test->b;*->c") = true := by
    decide +kernel
  rw [h _ _ _ _ hread, hwritten] at hleft
  cases hleft

end ResolutionLog
