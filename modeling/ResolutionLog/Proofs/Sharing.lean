import Mathlib.Data.List.Basic
import ResolutionLog.Proofs.Courses

/-! # Threads that share a component

Calls of several threads go on side by side, and any of them may make the next step. What a call can rely on in
between is that the tables only grow, and that what is entered is right; in return it enters nothing else itself.
`Course.Safe` says so of what is left of a call, whatever other calls enter between its steps. It holds of every
call that begins (`ComponentMetadata.Query.safe_course`), and a step of one call leaves all others safe. So it holds
of all calls after every schedule (`Sharing.Sound.after`).

The main statement is `Sharing.answers_shared`. Calls that come one after the other are a history of questions to a
component that is not shared (`Sharing.exists_schedule`). -/

namespace ResolutionLog

open Relation Std

/-! ## Interference -/

/-- What is right in an entry of a table. -/
abbrev Fitness := (memo : Memo) → String → memo.Value → Prop

/-- All entries are right. -/
def Memos.Sound (fits : Fitness) (m : Memos) : Prop :=
  ∀ memo name kept, (m memo).find name = some kept → fits memo name kept.value

/-- What a table holds under a name. -/
def Memos.Holds (memo : Memo) (name : String) (m : Memos) (kept : Shared memo.Value) : Prop :=
  (m memo).find name = some kept

/-- Empty tables have right entries only. -/
theorem Memos.sound_empty (fits : Fitness) : Memos.empty.Sound fits := by
  intro memo name kept h
  rw [empty, MemoTable.find_empty] at h
  cases h

/-- A right entry is one of the right entries. -/
theorem Memos.Sound.keep {fits : Fitness} {m : Memos} (h : m.Sound fits) {memo : Memo} {name : String}
    {value : memo.Value} (hv : fits memo name value) : (m.keep memo name value).2.Sound fits := by
  intro other first kept hkept
  by_cases hother : other = memo
  · subst hother
    rw [Memos.keep_same, MemoTable.find_keep] at hkept
    split at hkept
    · next heq =>
      subst heq
      obtain rfl := Option.some.inj hkept
      -- an earlier entry is right as well
      rw [MemoTable.value_keep]
      cases hfound : (m other).find name with
      | none => exact hv
      | some earlier => exact h other name earlier hfound
    · exact h other first kept hkept
  · rw [Memos.keep_other m memo name value hother] at hkept
    exact h other first kept hkept

namespace Course

variable {α β : Type} {fits : Fitness} {post post' : Memos → α → Prop} {m m' : Memos}

/-- A step adds to the tables at most. -/
theorem le_step (c : Course α) (m : Memos) : m ≤ (c.step m).2 := by
  cases c with
  | done answer => exact le_rfl
  | find memo name next => exact le_rfl
  | keep memo name value next => exact m.le_keep memo name value

/-- **A call is safe** when it makes right entries only, and its answer is right, whatever right entries others make
between its steps. -/
def Safe (fits : Fitness) (post : Memos → α → Prop) : Course α → Memos → Prop
  | done answer, m => ∀ m', m ≤ m' → m'.Sound fits → post m' answer
  | find memo name next, m => ∀ m', m ≤ m' → m'.Sound fits → (next ((m' memo).find name)).Safe fits post m'
  | keep memo name value next, m => fits memo name value ∧ ∀ m', m ≤ m' → m'.Sound fits →
      (next (m'.keep memo name value).1).Safe fits post (m'.keep memo name value).2

/-- What others enter leaves a call safe. -/
theorem Safe.mono {c : Course α} (h : c.Safe fits post m) (hle : m ≤ m') : c.Safe fits post m' := by
  cases c with
  | done answer => exact fun later hlater => h later (hle.trans hlater)
  | find memo name next => exact fun later hlater => h later (hle.trans hlater)
  | keep memo name value next => exact ⟨h.1, fun later hlater => h.2 later (hle.trans hlater)⟩

/-- **A step of a safe call** leaves all entries right and the call safe. -/
theorem Safe.step {c : Course α} (h : c.Safe fits post m) (hs : m.Sound fits) :
    (c.step m).2.Sound fits ∧ (c.step m).1.Safe fits post (c.step m).2 := by
  cases c with
  | done answer => exact ⟨hs, h⟩
  | find memo name next => exact ⟨hs, h m le_rfl hs⟩
  | keep memo name value next => exact ⟨hs.keep h.1, h.2 m le_rfl hs⟩

/-- One safe call after another. -/
theorem Safe.bind {c : Course α} {f : α → Course β} {post'' : Memos → β → Prop} (hs : m.Sound fits)
    (h : c.Safe fits post m)
    (hf : ∀ m' answer, m ≤ m' → m'.Sound fits → post m' answer → (f answer).Safe fits post'' m') :
    (c.bind f).Safe fits post'' m := by
  induction c generalizing m with
  | done answer => exact hf m answer le_rfl hs (h m le_rfl hs)
  | find memo name next ih =>
    intro m' hle hs'
    exact ih _ hs' (h m' hle hs') fun later answer hlater => hf later answer (hle.trans hlater)
  | keep memo name value next ih =>
    refine ⟨h.1, fun m' hle hs' => ?_⟩
    have hkeep := m'.le_keep memo name value
    exact ih _ (hs'.keep h.1) (h.2 m' hle hs') fun later answer hlater =>
      hf later answer ((hle.trans hkeep).trans hlater)

/-- A call may be held to less. -/
theorem Safe.imp {c : Course α} (h : c.Safe fits post m)
    (himp : ∀ m' answer, post m' answer → post' m' answer) : c.Safe fits post' m := by
  induction c generalizing m with
  | done answer => exact fun m' hle hs => himp m' answer (h m' hle hs)
  | find memo name next ih => exact fun m' hle hs => ih _ (h m' hle hs)
  | keep memo name value next ih => exact ⟨h.1, fun m' hle hs => ih _ (h.2 m' hle hs)⟩

/-- A right entry can be made, and stays. -/
theorem safe_keep {memo : Memo} {name : String} {value : memo.Value} (h : fits memo name value) (m : Memos) :
    (keep memo name value done).Safe fits (Memos.Holds memo name) m :=
  ⟨h, fun m' _ _ _ hlater _ => hlater memo name _ (m'.find_keep_self memo name value)⟩

end Course

/-! ## The calls are safe -/

namespace Descriptor

variable {d : Descriptor}

/-- **What is right in the tables**: a hierarchy is what its name reaches, if this is free of cycles, and a view is
that of a declared configuration with such a hierarchy. -/
def Fits (d : Descriptor) (id : ComponentId) (artifacts : DeclaredArtifacts) : Fitness
  | .hierarchies, name, found => d.Closes name found
  | .views, name, view => ∃ c found, d.configuration? name = some c ∧ d.Closes name found ∧
      view = d.view id artifacts c found

variable {id : ComponentId} {artifacts : DeclaredArtifacts}

/-- What is passed over lies on a cycle, so a name that is free of cycles is given all that its parents reach. -/
theorem safe_foldlM_climbCourse {rest : NameSet} {name : String}
    (hpath : ∀ working ∈ d.names, working ∉ rest → ReflTransGen d.Extends working name)
    (hcourse : ∀ parent m, d.Extends name parent → m.Sound (d.Fits id artifacts) →
      (d.hierarchyCourse rest parent).Safe (d.Fits id artifacts) (Memos.Holds .hierarchies parent) m)
    {parents : List String} (hparents : ∀ parent ∈ parents, d.Extends name parent) (start : NameSet) {m : Memos}
    (hs : m.Sound (d.Fits id artifacts)) :
    (parents.foldlM (d.climbCourse rest) start).Safe (d.Fits id artifacts)
      (fun _ own => CycleFree d.Extends name → ∀ other,
        other ∈ own ↔ other ∈ start ∨ ∃ parent ∈ parents, ReflTransGen d.Extends parent other) m := by
  induction parents generalizing start m with
  | nil =>
    intro _ _ _ _ other
    simp only [List.not_mem_nil, false_and, exists_false, or_false]
  | cons parent parents ih =>
    have hextends := hparents parent List.mem_cons_self
    have hothers : ∀ other ∈ parents, d.Extends name other :=
      fun other hm => hparents other (List.mem_cons_of_mem _ hm)
    have hcons : (parent :: parents).foldlM (d.climbCourse rest) start =
        (d.climbCourse rest start parent).bind (parents.foldlM (d.climbCourse rest)) := List.foldlM_cons
    have hclimb : (d.climbCourse rest start parent).Safe (d.Fits id artifacts)
        (fun _ own => CycleFree d.Extends name → ∀ other,
          other ∈ own ↔ other ∈ start ∨ ReflTransGen d.Extends parent other) m := by
      rw [climbCourse]
      split
      -- a parent that is passed over closes a cycle through the name
      · next hpassed =>
        intro _ _ _ hfree
        exact absurd hfree (not_cycleFree_of_passed hpath hextends hpassed.1 hpassed.2)
      · refine (hcourse parent m hextends hs).bind hs fun m' inherited _ hs' hkept _ _ _ hfree other => ?_
        rw [ExtTreeSet.mem_union_iff, hs' .hierarchies parent inherited hkept (hfree.of_step hextends) other]
    rw [hcons]
    refine hclimb.bind hs fun m' own _ hs' hown =>
      (ih hothers own hs').imp fun _ found hfound hfree other => ?_
    rw [hfound hfree, hown hfree, or_assoc]
    simp only [List.mem_cons, exists_eq_or_imp]

/-- **A call for a hierarchy is safe**, and answers with what is kept for its name. -/
theorem safe_hierarchyCourse {unvisited : NameSet} {name : String} {m : Memos}
    (hpath : ∀ working ∈ d.names, working ∉ unvisited → TransGen d.Extends working name)
    (hs : m.Sound (d.Fits id artifacts)) :
    (d.hierarchyCourse unvisited name).Safe (d.Fits id artifacts) (Memos.Holds .hierarchies name) m := by
  -- fewer configurations are unvisited when the call goes on to the parents
  induction hn : unvisited.size using Nat.strongRecOn generalizing unvisited name m with
  | ind n ih =>
    rw [hierarchyCourse_eq]
    intro m' _ hs'
    cases hkept : (m' .hierarchies).find name with
    | some found => exact fun later hlater _ => hlater .hierarchies name found hkept
    | none =>
      show (d.freshHierarchyCourse unvisited name).Safe _ _ _
      rw [freshHierarchyCourse]
      split
      · next hm =>
        have hrest := reach_of_not_mem_erase hpath
        have hfold := safe_foldlM_climbCourse hrest
          (fun parent m hextends hs => ih _ (hn ▸ size_erase_lt hm)
            (fun working hw hout => .tail' (hrest working hw hout) hextends) hs rfl)
          (fun _ hparent => hparent) (.ofList [name]) hs'
        exact hfold.bind hs' fun later own _ _ hown => Course.safe_keep (closes_of_parents hown) later
      · next hm => exact Course.safe_keep (closes_of_not_mem hpath hm) m'

end Descriptor

namespace ComponentMetadata

variable {d : Descriptor} {id : ComponentId} {artifacts : DeclaredArtifacts}

/-- **An answer is the entry of the table.** A configuration is answered just if it is declared. -/
def Query.Answered (d : Descriptor) : (query : Query) → Memos → query.Answer → Prop
  | .hierarchy name, m, found => (m .hierarchies).find name = some found
  | .configuration name, m, found => found = (m .views).find name ∧ (found.isSome = true ↔ name ∈ d.names)

/-- **Every call that begins is safe**, and answers with what is kept. -/
theorem Query.safe_course (query : Query) {m : Memos} (hs : m.Sound (d.Fits id artifacts)) :
    (query.course d id artifacts).Safe (d.Fits id artifacts) (query.Answered d) m := by
  have hcourse : ∀ name {m : Memos}, m.Sound (d.Fits id artifacts) →
      (d.hierarchyCourse d.names name).Safe (d.Fits id artifacts) (Memos.Holds .hierarchies name) m :=
    fun name => Descriptor.safe_hierarchyCourse fun _ hw hout => absurd hw hout
  cases query with
  | hierarchy name => exact hcourse name hs
  | configuration name =>
    -- an entry is made for a declared name only
    have hanswered : ∀ {m : Memos} {kept : Shared ConfigurationView}, m.Sound (d.Fits id artifacts) →
        (m .views).find name = some kept → Query.Answered d (.configuration name) m (some kept) := by
      intro m kept hs hkept
      obtain ⟨c, -, hc, -⟩ := hs .views name kept hkept
      refine ⟨hkept.symm, fun _ => ?_, fun _ => rfl⟩
      rw [Descriptor.mem_names, hc]
      rfl
    intro m' _ hs'
    cases hkept : (m' .views).find name with
    | some kept => exact fun later hlater hs => hanswered hs (hlater .views name kept hkept)
    | none =>
      show (d.freshConfigurationCourse id artifacts name).Safe _ _ m'
      rw [Descriptor.freshConfigurationCourse]
      cases hc : d.configuration? name with
      | none =>
        have hnot : name ∉ d.names := by
          rw [Descriptor.mem_names, hc]
          exact Bool.false_ne_true
        intro later _ hs
        refine ⟨?_, fun h => absurd h Bool.false_ne_true, fun h => absurd h hnot⟩
        cases hlater : (later .views).find name with
        | none => rfl
        | some kept =>
          obtain ⟨_, _, hdeclared, -⟩ := hs .views name kept hlater
          rw [hc] at hdeclared
          cases hdeclared
      | some c =>
        refine (hcourse name hs').bind hs' fun later hierarchy _ hs hheld => ⟨?_, ?_⟩
        · exact ⟨c, _, hc, hs .hierarchies name hierarchy hheld, rfl⟩
        · intro last _ _ answered hlast hs
          exact hanswered hs (hlast .views name _ (last.find_keep_self .views name _))

end ComponentMetadata

/-! ## What goes on at a shared component -/

/-- A call with what is left of it. -/
structure Call where
  query : ComponentMetadata.Query
  rest : Course query.Answer

/-- A component while it is shared: its tables, and the calls in the order in which they have begun. A thread makes
one call after the other. Here each call can go on beside all others, so that whatever several threads do is among
the schedules. -/
structure Sharing where
  memos : Memos
  calls : List Call

/-- What happens next: some thread begins a call, or a call makes its next step. -/
inductive Event where
  | begin (query : ComponentMetadata.Query)
  | advance (call : Nat)
deriving DecidableEq, Repr

/-- The answer of a call that is done, with the question. -/
def Call.answer? (call : Call) : Option ((query : ComponentMetadata.Query) × query.Answer) :=
  match call.rest with
  | .done answer => some ⟨call.query, answer⟩
  | _ => none

/-- A call has an answer when it is done. -/
theorem Call.answer?_eq_some_iff {call : Call} {query : ComponentMetadata.Query} {answer : query.Answer} :
    call.answer? = some ⟨query, answer⟩ ↔ call = ⟨query, .done answer⟩ := by
  obtain ⟨asked, rest⟩ := call
  constructor
  · intro h
    cases rest with
    | done found =>
      cases h
      rfl
    | find memo name next => cases h
    | keep memo name value next => cases h
  · intro h
    cases h
    rfl

namespace Sharing

variable (id : ComponentId) (d : Descriptor) (artifacts : DeclaredArtifacts)

/-- The component after an event. -/
def step (s : Sharing) : Event → Sharing
  | .begin query => { s with calls := s.calls ++ [⟨query, query.course d id artifacts⟩] }
  | .advance i =>
    match s.calls[i]? with
    | none => s
    | some call => ⟨(call.rest.step s.memos).2, s.calls.set i ⟨call.query, (call.rest.step s.memos).1⟩⟩

/-- The component after a schedule. -/
def after (s : Sharing) (schedule : List Event) : Sharing := schedule.foldl (step id d artifacts) s

/-- A component that has not been asked anything. -/
def fresh : Sharing := ⟨.empty, []⟩

/-- The answers that have been given. -/
def answers (s : Sharing) : List ((query : ComponentMetadata.Query) × query.Answer) :=
  s.calls.filterMap Call.answer?

/-- The answers are those of the calls that are done. -/
theorem mem_answers_iff {s : Sharing} {query : ComponentMetadata.Query} {answer : query.Answer} :
    ⟨query, answer⟩ ∈ s.answers ↔ ⟨query, .done answer⟩ ∈ s.calls := by
  rw [answers, List.mem_filterMap]
  simp only [Call.answer?_eq_some_iff, exists_eq_right]

variable {id d artifacts} {s : Sharing}

/-! ## One step -/

/-- A call makes its next step, and the other calls do not move. -/
theorem step_advance {i : Nat} {call : Call} (h : s.calls[i]? = some call) :
    s.step id d artifacts (.advance i) =
      ⟨(call.rest.step s.memos).2, s.calls.set i ⟨call.query, (call.rest.step s.memos).1⟩⟩ := by
  simp only [step, h]

/-- Where there is no call, nothing happens. -/
theorem step_advance_of_none {i : Nat} (h : s.calls[i]? = none) : s.step id d artifacts (.advance i) = s := by
  simp only [step, h]

/-- The tables only grow. -/
theorem le_step (e : Event) : s.memos ≤ (s.step id d artifacts e).memos := by
  cases e with
  | begin query => exact le_rfl
  | advance i =>
    cases hcall : s.calls[i]? with
    | none => rw [step_advance_of_none hcall]
    | some call =>
      rw [step_advance hcall]
      exact call.rest.le_step s.memos

/-- A call makes its own steps only. -/
theorem getElem?_calls_step {i : Nat} {call : Call} (h : s.calls[i]? = some call) (e : Event) :
    (s.step id d artifacts e).calls[i]? =
      some (if e = .advance i then ⟨call.query, (call.rest.step s.memos).1⟩ else call) := by
  obtain ⟨hlt, -⟩ := List.getElem?_eq_some_iff.1 h
  cases e with
  | begin query =>
    rw [if_neg Event.noConfusion]
    exact (List.getElem?_append_left hlt).trans h
  | advance j =>
    by_cases hj : j = i
    · subst hj
      rw [if_pos rfl, step_advance h, List.getElem?_set_self hlt]
    · rw [if_neg fun heq => hj (Event.advance.inj heq)]
      cases hcall : s.calls[j]? with
      | none => rw [step_advance_of_none hcall, h]
      | some other => rw [step_advance hcall, List.getElem?_set_ne hj, h]

variable (id d artifacts) in
/-- **What holds of a component while it is shared**: the entries are right, and every call is safe and comes to its
end. -/
structure Sound (s : Sharing) : Prop where
  memos : s.memos.Sound (d.Fits id artifacts)
  calls : ∀ call ∈ s.calls, call.rest.Safe (d.Fits id artifacts) (call.query.Answered d) s.memos ∧
    ∃ n, call.rest.Within n

/-- Before the first call everything is right. -/
theorem sound_fresh : fresh.Sound id d artifacts where
  memos := Memos.sound_empty _
  calls := fun _ h => absurd h List.not_mem_nil

/-- **A step of one call leaves all calls safe.** -/
theorem Sound.step (h : s.Sound id d artifacts) (e : Event) : (s.step id d artifacts e).Sound id d artifacts := by
  cases e with
  | begin query =>
    refine ⟨h.memos, fun call hcall => ?_⟩
    rcases List.mem_append.1 hcall with hcall | hcall
    · exact h.calls call hcall
    · rw [List.mem_singleton.1 hcall]
      exact ⟨query.safe_course h.memos, query.exists_within_course d id artifacts⟩
  | advance i =>
    cases hcall : s.calls[i]? with
    | none => rwa [step_advance_of_none hcall]
    | some call =>
      obtain ⟨hsafe, n, hn⟩ := h.calls call (List.mem_of_getElem? hcall)
      obtain ⟨hmemos, hnext⟩ := hsafe.step h.memos
      rw [step_advance hcall]
      refine ⟨hmemos, fun other hother => ?_⟩
      rcases List.mem_or_eq_of_mem_set hother with hother | rfl
      · -- for the other calls the tables have grown
        obtain ⟨hsafe, hends⟩ := h.calls other hother
        exact ⟨hsafe.mono (call.rest.le_step s.memos), hends⟩
      · exact ⟨hnext, n - 1, hn.step s.memos⟩

/-! ## Schedules -/

/-- A schedule goes on from what its first event has left. -/
theorem after_cons (s : Sharing) (e : Event) (schedule : List Event) :
    s.after id d artifacts (e :: schedule) = (s.step id d artifacts e).after id d artifacts schedule := rfl

/-- A later schedule goes on from what the former has left. -/
theorem after_append (s : Sharing) (schedule later : List Event) :
    s.after id d artifacts (schedule ++ later) = (s.after id d artifacts schedule).after id d artifacts later :=
  List.foldl_append

/-- **Entries stay**, whatever happens. -/
theorem le_after (s : Sharing) (schedule : List Event) : s.memos ≤ (s.after id d artifacts schedule).memos := by
  induction schedule generalizing s with
  | nil => exact le_rfl
  | cons e schedule ih => exact (s.le_step e).trans (ih _)

/-- **All calls stay safe.** -/
theorem Sound.after (h : s.Sound id d artifacts) (schedule : List Event) :
    (s.after id d artifacts schedule).Sound id d artifacts := by
  induction schedule generalizing s with
  | nil => exact h
  | cons e schedule ih => exact ih (h.step e)

/-- **A call is done when it has made its steps**, whatever others do in between. -/
theorem exists_done {i : Nat} {call : Call} (h : s.calls[i]? = some call) {n : Nat} (hn : call.rest.Within n)
    {schedule : List Event} (hcount : n ≤ schedule.count (.advance i)) :
    ∃ answer, (s.after id d artifacts schedule).calls[i]? = some ⟨call.query, .done answer⟩ := by
  induction schedule generalizing s call n with
  | nil =>
    obtain rfl := Nat.le_zero.1 hcount
    obtain ⟨answer, hdone⟩ := hn.eq_done
    exact ⟨answer, hdone ▸ h⟩
  | cons e schedule ih =>
    by_cases he : e = .advance i
    · have hnext : (s.step id d artifacts e).calls[i]? = some ⟨call.query, (call.rest.step s.memos).1⟩ :=
        (getElem?_calls_step h e).trans (congrArg some (if_pos he))
      rw [he, List.count_cons_self] at hcount
      have hless : n - 1 ≤ schedule.count (.advance i) := by omega
      obtain ⟨answer, hdone⟩ := ih hnext (hn.step s.memos) hless
      exact ⟨answer, hdone⟩
    · have hnext : (s.step id d artifacts e).calls[i]? = some call :=
        (getElem?_calls_step h e).trans (congrArg some (if_neg he))
      rw [List.count_cons_of_ne he] at hcount
      exact ih hnext hn hcount

/-- **What has been answered is what is kept.** -/
theorem Sound.answered (h : s.Sound id d artifacts) {query : ComponentMetadata.Query} {answer : query.Answer}
    (ha : ⟨query, answer⟩ ∈ s.answers) : query.Answered d s.memos answer :=
  (h.calls _ (mem_answers_iff.1 ha)).1 s.memos le_rfl h.memos

/-! ## One call after the other -/

/-- Nothing but the steps of one call, as many as it makes at most. -/
theorem after_replicate {i : Nat} {query : ComponentMetadata.Query} {rest : Course query.Answer} {n : Nat}
    (h : s.calls[i]? = some ⟨query, rest⟩) (hn : rest.Within n) :
    s.after id d artifacts (List.replicate n (.advance i)) =
      ⟨(rest.alone s.memos).2, s.calls.set i ⟨query, .done (rest.alone s.memos).1⟩⟩ := by
  induction n generalizing s rest with
  | zero =>
    obtain ⟨answer, rfl⟩ := hn.eq_done
    obtain ⟨hlt, hcall⟩ := List.getElem?_eq_some_iff.1 h
    rw [Course.alone, ← hcall, List.set_getElem_self hlt]
    rfl
  | succ n ih =>
    obtain ⟨hlt, -⟩ := List.getElem?_eq_some_iff.1 h
    rw [List.replicate_succ, after_cons, step_advance h, ih (List.getElem?_set_self hlt) (hn.step s.memos),
      List.set_set, Course.alone_step]

/-- **A call that nothing comes between is a question to the component.** It is answered as a component that keeps
the same would answer, and what is kept afterwards is the same again. -/
theorem exists_after_begin {c : ComponentMetadata} (h : c.HeldBy s.memos) (query : ComponentMetadata.Query) :
    ∃ steps answer memos, s.after c.id c.descriptor c.artifacts (.begin query :: steps) =
        ⟨memos, s.calls ++ [⟨query, .done answer⟩]⟩ ∧
      c.Gives query answer ∧ (c.ask query).HeldBy memos := by
  obtain ⟨n, hn⟩ := query.exists_within_course c.descriptor c.id c.artifacts
  obtain ⟨hgives, hheld⟩ := h.alone_course query
  refine ⟨List.replicate n (.advance s.calls.length), _, _, ?_, hgives, hheld⟩
  rw [after_cons, after_replicate List.getElem?_concat_length hn]
  simp only [step, List.set_append_right _ _ (Nat.le_refl _), Nat.sub_self, List.set_cons_zero]

/-- **Calls that come one after the other are a history of questions.** -/
theorem exists_schedule (id : ComponentId) (d : Descriptor) (artifacts : DeclaredArtifacts)
    (history : List ComponentMetadata.Query) :
    ∃ schedule, (ComponentMetadata.asked id d artifacts history).HeldBy
      (fresh.after id d artifacts schedule).memos := by
  induction history using List.reverseRecOn with
  | nil => exact ⟨[], ComponentMetadata.heldBy_fresh id d artifacts⟩
  | append_singleton history query ih =>
    obtain ⟨schedule, hheld⟩ := ih
    -- questions leave what is declared as it is
    obtain ⟨hid, hd, hartifacts, -⟩ := ComponentMetadata.consistent_asked id d artifacts history
    obtain ⟨steps, answer, memos, hafter, -, hlater⟩ := exists_after_begin hheld query
    rw [hid, hd, hartifacts] at hafter
    refine ⟨schedule ++ .begin query :: steps, ?_⟩
    rw [after_append, hafter, ComponentMetadata.asked, ComponentMetadata.after, List.foldl_concat]
    exact hlater

/-! ## What threads share -/

/-- **Threads share one object for each configuration**, after every schedule of calls. What is entered in a table
stays. A configuration is answered just if it is declared, and always with the one object that is entered for it; the
same goes for hierarchies. If the name is free of cycles, its hierarchy is all that it reaches, and the configuration
is the one that a component answers that is not shared. And each call is done after a number of steps that the others
have no say in. -/
theorem answers_shared (id : ComponentId) (declarations : List Configuration) (dependencies : List Dependency)
    (excludes : List ExcludeRule) (artifacts : DeclaredArtifacts) (schedule : List Event) :
    let d := Descriptor.ofLists declarations dependencies excludes
    let s := fresh.after id d artifacts schedule
    (∀ later memo name kept, (s.memos memo).find name = some kept →
      ((s.after id d artifacts later).memos memo).find name = some kept) ∧
    (∀ name found, ⟨.configuration name, found⟩ ∈ s.answers →
      (found.isSome = true ↔ ∃ c ∈ declarations, c.name = name) ∧ found = (s.memos .views).find name ∧
      ∀ other, ⟨.configuration name, other⟩ ∈ s.answers → other = found) ∧
    (∀ name found, ⟨.hierarchy name, found⟩ ∈ s.answers → (s.memos .hierarchies).find name = some found) ∧
    (∀ name, CycleFree (Extends declarations) name →
      (∀ kept, (s.memos .hierarchies).find name = some kept →
        ∀ other, other ∈ kept.value ↔ ReflTransGen (Extends declarations) name other) ∧
      ∀ kept, (s.memos .views).find name = some kept →
        (∀ other, other ∈ kept.value.hierarchy ↔ ReflTransGen (Extends declarations) name other) ∧
        ((ComponentMetadata.fresh id d artifacts).configuration? name).1 = some kept.value) ∧
    ∀ i call, s.calls[i]? = some call → ∃ n, ∀ later, n ≤ later.count (.advance i) →
      ∃ answer, (s.after id d artifacts later).calls[i]? = some ⟨call.query, .done answer⟩ := by
  intro d s
  have hs : s.Sound id d artifacts := sound_fresh.after schedule
  have hextends : d.Extends = Extends declarations := Descriptor.extends_ofLists
  -- all entries and answers are right, whatever the schedule
  refine ⟨fun later => s.le_after later, fun name found hfound => ?_, fun name found hfound => ?_,
    fun name hfree => ⟨fun kept hkept => ?_, fun kept hkept => ?_⟩, fun i call hcall => ?_⟩
  · obtain ⟨heq, hdeclared⟩ := hs.answered hfound
    refine ⟨hdeclared.trans Descriptor.mem_names_ofLists_iff, heq, fun other hother => ?_⟩
    exact (hs.answered hother).1.trans heq.symm
  · exact hs.answered hfound
  · rw [← hextends] at hfree ⊢
    exact hs.memos .hierarchies name kept hkept hfree
  · rw [← hextends] at hfree ⊢
    obtain ⟨c, found, hc, hcloses, hview⟩ := hs.memos .views name kept hkept
    -- the hierarchy that is shared is the one that the component finds alone
    have hsame : ((ComponentMetadata.fresh id d artifacts).hierarchy name).1 = found := by
      refine ExtTreeSet.ext_mem fun other => ?_
      rw [hcloses hfree]
      exact d.mem_hierarchy_empty_iff name other
    refine ⟨hview ▸ hcloses hfree, ?_⟩
    rw [(ComponentMetadata.consistent_fresh id d artifacts).configuration?_eq name, hc, hsame, hview,
      Option.map_some]
  · obtain ⟨-, n, hn⟩ := hs.calls call (List.mem_of_getElem? hcall)
    exact ⟨n, fun later hcount => exists_done hcall hn hcount⟩

end Sharing

/-- Two calls for one configuration that make their steps in turn. Each of them finds nothing kept at first. -/
def Sample.race : List Event :=
  [.begin (.configuration "app"), .begin (.configuration "app")] ++
    (List.replicate 6 [.advance 0, .advance 1]).flatten

namespace Sharing

/-- Both calls are answered with one object, though both have made a view of their own. -/
theorem answers_shared_sample :
    ∃ kept, (fresh.after (.module ⟨"org", "app", "1.0"⟩) (.ofLists Sample.ring [] []) ∅ Sample.race).answers =
        [⟨.configuration "app", some kept⟩, ⟨.configuration "app", some kept⟩] ∧
      ∀ other, other ∈ kept.value.hierarchy ↔ ReflTransGen (Extends Sample.ring) "app" other := by
  have hqueries : (fresh.after (.module ⟨"org", "app", "1.0"⟩) (.ofLists Sample.ring [] []) ∅
      Sample.race).answers.map Sigma.fst = [.configuration "app", .configuration "app"] := by
    decide +kernel
  obtain ⟨-, hanswers, -, hclosure, -⟩ :=
    answers_shared (.module ⟨"org", "app", "1.0"⟩) Sample.ring [] [] ∅ Sample.race
  -- only what the theorem says of the schedule is used from here on
  generalize fresh.after (.module ⟨"org", "app", "1.0"⟩) (.ofLists Sample.ring [] []) ∅ Sample.race = s at *
  obtain ⟨⟨_, first⟩, rest, hsplit, rfl, hrest⟩ := List.map_eq_cons_iff.1 hqueries
  obtain ⟨⟨_, second⟩, last, rfl, rfl, hlast⟩ := List.map_eq_cons_iff.1 hrest
  obtain rfl := List.map_eq_nil_iff.1 hlast
  rw [hsplit] at hanswers ⊢
  obtain ⟨hdeclared, hfound, hall⟩ := hanswers "app" first List.mem_cons_self
  obtain rfl := hall second (List.mem_cons_of_mem _ List.mem_cons_self)
  obtain ⟨kept, rfl⟩ := Option.isSome_iff_exists.1 (hdeclared.2 ⟨_, List.mem_cons_self, rfl⟩)
  exact ⟨kept, rfl, ((hclosure "app" Sample.cycleFree_ring).2 kept hfound.symm).1⟩

end Sharing

end ResolutionLog
