import Mathlib.Data.List.Forall2
import ResolutionLog.Identifier
import ResolutionLog.Proofs.Frames

/-! # Attempts on lists

A list of computations that can fail succeeds when each of them does. This is said of `List.mapM` once, with the
results side by side with what they are of (`mapM_eq_ok_iff`), and then of lists of file names.

Where each computation goes on with what the one before has left, it is not enough to know when the single ones
succeed. `SucceedsIff` says this together with what a result is like, and `SucceedsIff.foldlM` goes over a list
with it, knowing at each element which ones have been passed. -/

namespace ResolutionLog

open Std

section MapM

variable {ε α β : Type} {f : α → Except ε β}

/-- **A list of computations succeeds with their results**, each in the place of its computation. -/
theorem mapM_eq_ok_iff {l : List α} {results : List β} :
    l.mapM f = .ok results ↔ List.Forall₂ (fun a b => f a = .ok b) l results := by
  induction l generalizing results with
  | nil =>
    rw [List.mapM_nil, List.forall₂_nil_left_iff]
    exact ⟨fun h => (Except.ok.inj h).symm, fun h => congrArg _ h.symm⟩
  | cons a l ih =>
    simp only [List.mapM_cons, bind_eq_ok_iff, List.forall₂_cons_left_iff, ih]
    constructor
    · rintro ⟨b, hb, rest, hrest, h⟩
      exact ⟨b, rest, hb, hrest, (Except.ok.inj h).symm⟩
    · rintro ⟨b, rest, hb, hrest, rfl⟩
      exact ⟨b, hb, rest, hrest, rfl⟩

/-- A list of computations succeeds when each of them does. -/
theorem exists_mapM_eq_ok_iff {l : List α} :
    (∃ results, l.mapM f = .ok results) ↔ ∀ a ∈ l, ∃ b, f a = .ok b := by
  simp only [mapM_eq_ok_iff]
  induction l with
  | nil => simp
  | cons a l ih =>
    rw [List.forall_mem_cons, ← ih]
    constructor
    · rintro ⟨results, h⟩
      cases h with
      | cons hb hrest => exact ⟨⟨_, hb⟩, _, hrest⟩
    · rintro ⟨⟨b, hb⟩, results, hrest⟩
      exact ⟨b :: results, .cons hb hrest⟩

/-- What is in a list of results is the result of something in the list of computations. -/
theorem mem_results_iff {l : List α} {results : List β} (h : l.mapM f = .ok results) {b : β} :
    b ∈ results ↔ ∃ a ∈ l, f a = .ok b := by
  rw [mapM_eq_ok_iff] at h
  induction h with
  | nil => simp
  | @cons a c l results hc _ ih =>
    simp only [List.mem_cons, exists_eq_or_imp, ih]
    refine or_congr_left ?_
    rw [hc, Except.ok.injEq, eq_comm]

/-- Where a result is known beforehand, so is the list of results. -/
theorem mapM_eq_ok_map_iff {accepted : α → Prop} {value : α → β}
    (hf : ∀ a b, f a = .ok b ↔ accepted a ∧ b = value a) {l : List α} {results : List β} :
    l.mapM f = .ok results ↔ (∀ a ∈ l, accepted a) ∧ results = l.map value := by
  induction l generalizing results with
  | nil =>
    rw [List.mapM_nil]
    exact ⟨fun h => ⟨by simp, (Except.ok.inj h).symm⟩, fun h => congrArg _ h.2.symm⟩
  | cons a l ih =>
    simp only [List.mapM_cons, bind_eq_ok_iff, ih, hf, List.forall_mem_cons, List.map_cons]
    constructor
    · rintro ⟨b, ⟨ha, rfl⟩, rest, ⟨hl, rfl⟩, h⟩
      exact ⟨⟨ha, hl⟩, (Except.ok.inj h).symm⟩
    · rintro ⟨⟨ha, hl⟩, rfl⟩
      exact ⟨_, ⟨ha, rfl⟩, _, ⟨hl, rfl⟩, rfl⟩

/-- Where the result of each step is known beforehand, so is the result of going over a list. -/
theorem foldlM_eq_ok_foldl_iff {accepted : α → Prop} {add : β → α → Except ε β} {value : β → α → β}
    (hadd : ∀ b a b', add b a = .ok b' ↔ accepted a ∧ b' = value b a) {l : List α} {start result : β} :
    l.foldlM add start = .ok result ↔ (∀ a ∈ l, accepted a) ∧ result = l.foldl value start := by
  induction l generalizing start with
  | nil =>
    rw [List.foldlM_nil]
    exact ⟨fun h => ⟨by simp, (Except.ok.inj h).symm⟩, fun h => congrArg _ h.2.symm⟩
  | cons a l ih =>
    simp only [List.foldlM_cons, bind_eq_ok_iff, ih, hadd, List.forall_mem_cons, List.foldl_cons]
    constructor
    · rintro ⟨_, ⟨ha, rfl⟩, hl, rfl⟩
      exact ⟨⟨ha, hl⟩, rfl⟩
    · rintro ⟨⟨ha, hl⟩, rfl⟩
      exact ⟨_, ⟨ha, rfl⟩, hl, rfl⟩

end MapM

/-! ## Computations that go on from each other -/

/-- **A computation succeeds under a condition**, only then, and with a result of some kind. -/
structure SucceedsIff {ε α : Type} (x : Except ε α) (accepted : Prop) (kind : α → Prop) : Prop where
  exists_iff : (∃ a, x = .ok a) ↔ accepted
  of_eq_ok : ∀ a, x = .ok a → kind a

namespace SucceedsIff

variable {ε α β : Type} {x : Except ε α} {p q : Prop} {kind : α → Prop} {kind' : β → Prop}

/-- What is known of any computation. -/
theorem self (h : (∃ a, x = .ok a) ↔ p) : SucceedsIff x p (x = .ok ·) := ⟨h, fun _ ha => ha⟩

/-- What is there already has succeeded. -/
theorem of_ok {a : α} (h : kind a) : SucceedsIff (.ok a : Except ε α) True kind := by
  refine ⟨⟨fun _ => trivial, fun _ => ⟨a, rfl⟩⟩, fun b hb => ?_⟩
  rwa [← Except.ok.inj hb]

/-- The condition may be replaced by an equivalent one. -/
theorem congr (h : SucceedsIff x p kind) (hpq : p ↔ q) : SucceedsIff x q kind :=
  ⟨h.exists_iff.trans hpq, h.of_eq_ok⟩

/-- A computation goes on with a result of the first kind. -/
theorem bind (h : SucceedsIff x p kind) {f : α → Except ε β}
    (hf : ∀ a, kind a → SucceedsIff (f a) q kind') : SucceedsIff (x >>= f) (p ∧ q) kind' := by
  constructor
  · constructor
    · rintro ⟨b, hb⟩
      obtain ⟨a, ha, hfa⟩ := bind_eq_ok_iff.1 hb
      exact ⟨h.exists_iff.1 ⟨a, ha⟩, (hf a (h.of_eq_ok a ha)).exists_iff.1 ⟨b, hfa⟩⟩
    · rintro ⟨hp, hq⟩
      obtain ⟨a, ha⟩ := h.exists_iff.2 hp
      obtain ⟨b, hb⟩ := (hf a (h.of_eq_ok a ha)).exists_iff.2 hq
      exact ⟨b, bind_eq_ok_iff.2 ⟨a, ha, hb⟩⟩
  · intro b hb
    obtain ⟨a, ha, hfa⟩ := bind_eq_ok_iff.1 hb
    exact (hf a (h.of_eq_ok a ha)).of_eq_ok b hfa

/-- Something is made of a result of the first kind. -/
theorem thenOk (h : SucceedsIff x p kind) {f : α → β} (hf : ∀ a, kind a → kind' (f a)) :
    SucceedsIff (x >>= fun a => .ok (f a)) p kind' :=
  (h.bind fun a ha => of_ok (hf a ha)).congr (and_iff_left trivial)

/-- **Going over a list** succeeds when each element is accepted, where what is left behind each element may
depend on the elements up to it. -/
theorem foldlM {add : β → α → Except ε β} {all : List α} {accepted : α → Prop} {kind : List α → β → Prop}
    (hadd : ∀ front a rest b, all = front ++ a :: rest → kind front b →
      SucceedsIff (add b a) (accepted a) (kind (front ++ [a]))) {start : β} (hstart : kind [] start) :
    SucceedsIff (all.foldlM add start) (∀ a ∈ all, accepted a) (kind all) := by
  have hrest : ∀ rest front b, all = front ++ rest → kind front b →
      SucceedsIff (rest.foldlM add b) (∀ a ∈ rest, accepted a) (kind all) := by
    intro rest
    -- the elements that are left are gone over, those that were passed accumulate
    induction rest with
    | nil =>
      intro front b hall hb
      rw [List.append_nil] at hall
      exact (of_ok (hall ▸ hb)).congr (by simp)
    | cons a rest ih =>
      intro front b hall hb
      have hnext : all = (front ++ [a]) ++ rest := by rw [hall, List.append_assoc, List.singleton_append]
      rw [List.foldlM_cons, List.forall_mem_cons]
      exact (hadd front a rest b hall hb).bind fun b' hb' => ih _ b' hnext hb'
  exact hrest all [] start rfl hstart

end SucceedsIff

/-! ## Files -/

/-- A list of file names that are all accepted. -/
def FilesAccepted (files : List String) : Prop :=
  ∀ file ∈ files, ∃ artifact, Artifact.ofFileName file = .ok artifact

/-- A list of files gives artifacts when all their names are accepted. -/
theorem exists_artifactsOfFileNames_iff {files : List String} :
    (∃ artifacts, Artifact.ofFileNames files = .ok artifacts) ↔ FilesAccepted files :=
  exists_mapM_eq_ok_iff

/-- A list of files gives a set of artifacts when all their names are accepted. -/
theorem exists_ofFileNames_iff {files : List String} :
    (∃ set, ArtifactSet.ofFileNames files = .ok set) ↔ FilesAccepted files := by
  rw [← exists_artifactsOfFileNames_iff]
  constructor
  · rintro ⟨set, h⟩
    obtain ⟨artifacts, hartifacts, -⟩ := bind_eq_ok_iff.1 h
    exact ⟨artifacts, hartifacts⟩
  · rintro ⟨artifacts, h⟩
    exact ⟨_, bind_eq_ok_iff.2 ⟨artifacts, h, rfl⟩⟩

/-- The set of a list of files has the artifacts of these files. -/
theorem mem_ofFileNames_iff {files : List String} {set : ArtifactSet}
    (h : ArtifactSet.ofFileNames files = .ok set) {artifact : Artifact} :
    artifact ∈ set ↔ ∃ file ∈ files, Artifact.ofFileName file = .ok artifact := by
  obtain ⟨artifacts, hartifacts, heq⟩ := bind_eq_ok_iff.1 h
  obtain rfl := Except.ok.inj heq
  rw [ExtTreeSet.mem_ofList, List.contains_iff_mem]
  exact mem_results_iff hartifacts

end ResolutionLog
