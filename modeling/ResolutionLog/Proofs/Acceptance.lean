import Mathlib.Data.List.Induction
import ResolutionLog.Proofs.Description

/-! # Which records make a graph

Whether some records make a graph can be told from the records alone, and so can the error if they do not.
`Record.Valid` says what is asked of records, and `Record.Offends` what is wrong with a record after valid
ones: the two fit together (`Record.valid_concat_iff`), and a draft refuses a record exactly with what is wrong
with it (`Draft.apply_of_offends`). So runs go over valid records and no others (`Draft.exists_run_iff`).
What is left is only known at the root: every other node needs a parent (`Record.Orphan`).

Main statement: `materializeBytes_ok_and_error_iff`. -/

namespace ResolutionLog

open Std

variable {contents : Contents}

/-! ## What is asked of records -/

namespace Record

/-- The keys that must be registered before a record, in the order in which they are looked for. -/
def mentions : Record → List NodeKey
  | .newNode _ => []
  | .parentChild parent child _ => [parent, child]
  | .unresolved parent _ _ => [parent]
  | .firstLevel key | .root key => [key]

/-- The keys that some records register, each of them once and in the order of keys. -/
def registered (records : List Record) : List NodeKey :=
  (ExtTreeSet.ofList (records.filterMap fun | .newNode key => some key | _ => none)).toList

/-- Every record comes after the records that register the keys it mentions. -/
def RegisteredBefore (records : List Record) : Prop :=
  ∀ front record rest, records = front ++ record :: rest →
    ∀ key ∈ record.mentions, .newNode key ∈ front

/-- The contents answer what is asked of them about a record: an edge needs an artifact set for its handle
and an answer about its child, which need not be a selector; a first-level dependency needs a selector. -/
def Answered (contents : Contents) : Record → Prop
  | .parentChild _ child handle =>
    (∃ set, contents.artifacts handle = .found set) ∧ contents.requested child ≠ .aborted
  | .firstLevel key => ∃ selector, contents.requested key = .found selector
  | _ => True

/-- **Records are valid** when no key is registered twice, none is mentioned before it is registered, and the
contents answer what is asked of them. -/
structure Valid (contents : Contents) (records : List Record) : Prop where
  registered_once : ∀ key, records.count (.newNode key) ≤ 1
  registered_before : RegisteredBefore records
  answered : ∀ record ∈ records, record.Answered contents

/-- A registered node other than the root has no parent. -/
def Orphan (records : List Record) (root key : NodeKey) : Prop :=
  .newNode key ∈ records ∧ key ≠ root ∧ ∀ parent handle, .parentChild parent key handle ∉ records

/-- **What is wrong with a record** after some records before it, with the error for it. The keys of an edge
are looked for before its artifacts, and the artifacts before the request for its child. -/
inductive Offends (contents : Contents) (before : List Record) : Record → LogError → Prop where
  /-- The key is registered already. -/
  | registeredTwice {key : NodeKey} (again : .newNode key ∈ before) :
    Offends contents before (.newNode key) (.duplicateNode key)
  /-- A key is not registered; of several the first one counts. -/
  | unknownKey {record : Record} {key : NodeKey}
      (unknown : record.mentions.find? (fun key => Record.newNode key ∉ before) = some key) :
    Offends contents before record (.unexpectedNode key (registered before))
  /-- The handle of an edge between registered nodes stands for nothing. -/
  | noArtifacts {parent child : NodeKey} {handle : ArtifactHandle} (parent_mem : .newNode parent ∈ before)
      (child_mem : .newNode child ∈ before) (missing : contents.artifacts handle = .missing) :
    Offends contents before (.parentChild parent child handle) (.missingArtifacts handle)
  /-- No selector is known for a registered first-level dependency. -/
  | noSelector {key : NodeKey} (mem : .newNode key ∈ before) (missing : contents.requested key = .missing) :
    Offends contents before (.firstLevel key) (.missingSelector key)
  /-- The contents give up on the artifacts of an edge. -/
  | artifactsAborted {parent child : NodeKey} {handle : ArtifactHandle}
      (parent_mem : .newNode parent ∈ before) (child_mem : .newNode child ∈ before)
      (aborted : contents.artifacts handle = .aborted) :
    Offends contents before (.parentChild parent child handle) .lookupAborted
  /-- The contents give up on the request for the child of an edge. -/
  | childAborted {parent child : NodeKey} {handle : ArtifactHandle} {set : ArtifactSet}
      (parent_mem : .newNode parent ∈ before) (child_mem : .newNode child ∈ before)
      (found : contents.artifacts handle = .found set) (aborted : contents.requested child = .aborted) :
    Offends contents before (.parentChild parent child handle) .lookupAborted
  /-- The contents give up on the request for a first-level dependency. -/
  | selectorAborted {key : NodeKey} (mem : .newNode key ∈ before)
      (aborted : contents.requested key = .aborted) :
    Offends contents before (.firstLevel key) .lookupAborted

/-- **Why some records make no graph**, with the error. -/
inductive Fails (contents : Contents) (records : List Record) : LogError → Prop where
  /-- A record, at the first root or before it, is the first one with which something is wrong. -/
  | offence {before after : List Record} {record : Record} {e : LogError}
      (split : records = before ++ record :: after) (no_root : ∀ key, .root key ∉ before)
      (valid : Valid contents before) (offends : Offends contents before record e) :
    Fails contents records e
  /-- Nothing is wrong with any record, but no root is named. -/
  | noRoot (no_root : ∀ key, .root key ∉ records) (valid : Valid contents records) :
    Fails contents records (.rootNotFound records.length)
  /-- Nothing is wrong with any record up to the first root, but a node lacks a parent; of several the
  smallest one counts. -/
  | orphan {before after : List Record} {root key : NodeKey}
      (split : records = before ++ .root root :: after) (no_root : ∀ key, .root key ∉ before)
      (valid : Valid contents (before ++ [.root root])) (orphan : Orphan before root key)
      (least : ∀ other, Orphan before root other → compare key other ≠ .gt) :
    Fails contents records (.orphanNode key (registered before))

/-! ## Registered keys -/

/-- What is registered are the keys of the node records. -/
@[simp] theorem mem_registered {records : List Record} {key : NodeKey} :
    key ∈ registered records ↔ .newNode key ∈ records := by
  rw [registered, ExtTreeSet.mem_toList, ExtTreeSet.mem_ofList, List.contains_iff_mem, List.mem_filterMap]
  constructor
  · rintro ⟨record, hm, hkey⟩
    cases record with
    | newNode other =>
      cases hkey
      exact hm
    | root | firstLevel | parentChild | unresolved => cases hkey
  · intro hm
    exact ⟨_, hm, rfl⟩

/-- Registered keys are listed in their order, each once. -/
theorem registered_sorted (records : List Record) :
    (registered records).Pairwise fun a b => compare a b = .lt := ExtTreeSet.ordered_toList

/-! ## Valid records one by one -/

/-- Records with a last one register no key twice when those before it do not and it brings a new key. -/
theorem count_newNode_concat_le_iff {records : List Record} {record : Record} :
    (∀ key, (records ++ [record]).count (.newNode key) ≤ 1) ↔
      (∀ key, records.count (.newNode key) ≤ 1) ∧
        ∀ key, record = .newNode key → .newNode key ∉ records := by
  simp only [List.count_append, List.count_singleton, beq_iff_eq]
  constructor
  · intro h
    refine ⟨fun key => Nat.le_trans (Nat.le_add_right _ _) (h key), ?_⟩
    rintro key rfl hm
    have hone := h key
    have hpos := List.count_pos_iff.2 hm
    rw [if_pos rfl] at hone
    omega
  · rintro ⟨h, hnew⟩ key
    split
    · next heq =>
      have hzero := List.count_eq_zero_of_not_mem (hnew key heq)
      omega
    · exact h key

/-- A last record comes after the records that register the keys it mentions when these are registered. -/
theorem registeredBefore_concat_iff {records : List Record} {record : Record} :
    RegisteredBefore (records ++ [record]) ↔
      RegisteredBefore records ∧ ∀ key ∈ record.mentions, .newNode key ∈ records := by
  constructor
  · intro h
    refine ⟨fun front other rest heq => h front other (rest ++ [record]) ?_, h records record [] rfl⟩
    rw [heq, List.append_assoc, List.cons_append]
  · rintro ⟨h, hrecord⟩ front other rest heq
    rcases List.eq_nil_or_concat rest with rfl | ⟨rest, last, rfl⟩
    · obtain ⟨rfl, hlast⟩ := List.append_inj' heq rfl
      cases hlast
      exact hrecord
    · rw [List.concat_eq_append, ← List.cons_append, ← List.append_assoc] at heq
      exact h front other rest (List.append_inj' heq rfl).1

/-- Whether keys are registered before they are mentioned can be checked position by position. -/
theorem registeredBefore_iff_getElem {records : List Record} :
    RegisteredBefore records ↔ ∀ i, ∀ h : i < records.length, ∀ key ∈ records[i].mentions,
      .newNode key ∈ records.take i := by
  constructor
  · intro h i hi
    refine h (records.take i) records[i] (records.drop (i + 1)) ?_
    rw [← List.drop_eq_getElem_cons hi, List.take_append_drop]
  · rintro h front record rest rfl key hk
    have hi : front.length < (front ++ record :: rest).length := by simp
    have hfront := h front.length hi key (by simpa using hk)
    rwa [List.take_left] at hfront

instance : DecidablePred RegisteredBefore :=
  fun _ => decidable_of_iff' _ registeredBefore_iff_getElem

/-- **Nothing is wrong with a record** when it brings a new key or none, mentions registered keys only, and
is answered by the contents. -/
theorem forall_not_offends_iff {before : List Record} {record : Record} :
    (∀ e, ¬Offends contents before record e) ↔
      (∀ key, record = .newNode key → .newNode key ∉ before) ∧
        (∀ key ∈ record.mentions, .newNode key ∈ before) ∧ record.Answered contents := by
  have hfind : record.mentions.find? (fun key => Record.newNode key ∉ before) = none ↔
      ∀ key ∈ record.mentions, .newNode key ∈ before := by
    simp
  constructor
  · intro h
    have hknown : ∀ key ∈ record.mentions, .newNode key ∈ before := by
      rw [← hfind, Option.eq_none_iff_forall_ne_some]
      exact fun key hkey => h _ (.unknownKey hkey)
    refine ⟨?_, hknown, ?_⟩
    · rintro key rfl hm
      exact h _ (.registeredTwice hm)
    -- its keys are registered, so a record that is not answered would offend
    · cases record with
      | parentChild parent child handle =>
        have hp := hknown parent List.mem_cons_self
        have hc := hknown child (List.mem_cons_of_mem _ List.mem_cons_self)
        cases hset : contents.artifacts handle with
        | found set => exact ⟨⟨set, hset⟩, fun haborted => h _ (.childAborted hp hc hset haborted)⟩
        | missing => exact absurd (.noArtifacts hp hc hset) (h _)
        | aborted => exact absurd (.artifactsAborted hp hc hset) (h _)
      | firstLevel key =>
        have hk := hknown key List.mem_cons_self
        cases hselector : contents.requested key with
        | found selector => exact ⟨selector, hselector⟩
        | missing => exact absurd (.noSelector hk hselector) (h _)
        | aborted => exact absurd (.selectorAborted hk hselector) (h _)
      | newNode | root | unresolved => trivial
  · rintro ⟨hnew, hknown, hanswered⟩ e ho
    -- each way to offend goes against one of the three conditions
    cases ho with
    | registeredTwice again => exact hnew _ rfl again
    | unknownKey unknown =>
      rw [hfind.2 hknown] at unknown
      cases unknown
    | noArtifacts _ _ missing =>
      obtain ⟨⟨set, found⟩, -⟩ := hanswered
      exact nomatch found.symm.trans missing
    | artifactsAborted _ _ aborted =>
      obtain ⟨⟨set, found⟩, -⟩ := hanswered
      exact nomatch found.symm.trans aborted
    | childAborted _ _ _ aborted => exact hanswered.2 aborted
    | noSelector _ missing =>
      obtain ⟨selector, found⟩ := hanswered
      exact nomatch found.symm.trans missing
    | selectorAborted _ aborted =>
      obtain ⟨selector, found⟩ := hanswered
      exact nomatch found.symm.trans aborted

/-- An empty list of records is valid. -/
theorem valid_nil : Valid contents [] := by
  refine ⟨fun key => Nat.zero_le 1, fun front record rest h => ?_, fun record hm => nomatch hm⟩
  simp at h

/-- **Records and a last one are valid** when those are and nothing is wrong with it. -/
theorem valid_concat_iff {records : List Record} {record : Record} :
    Valid contents (records ++ [record]) ↔
      Valid contents records ∧ ∀ e, ¬Offends contents records record e := by
  rw [forall_not_offends_iff]
  constructor
  · intro h
    obtain ⟨honce, hnew⟩ := count_newNode_concat_le_iff.1 h.registered_once
    obtain ⟨hbefore, hknown⟩ := registeredBefore_concat_iff.1 h.registered_before
    obtain ⟨hanswered, hlast⟩ := List.forall_mem_append.1 h.answered
    exact ⟨⟨honce, hbefore, hanswered⟩, hnew, hknown, hlast record List.mem_cons_self⟩
  · rintro ⟨h, hnew, hknown, hlast⟩
    refine ⟨count_newNode_concat_le_iff.2 ⟨h.registered_once, hnew⟩,
      registeredBefore_concat_iff.2 ⟨h.registered_before, hknown⟩, ?_⟩
    rw [List.forall_mem_append, List.forall_mem_singleton]
    exact ⟨h.answered, hlast⟩

/-- A key that valid records mention is registered by one of them. -/
theorem Valid.newNode_mem {records : List Record} (h : Valid contents records) {record : Record}
    (hm : record ∈ records) {key : NodeKey} (hk : key ∈ record.mentions) : .newNode key ∈ records := by
  obtain ⟨front, rest, rfl⟩ := List.append_of_mem hm
  exact List.mem_append_left _ (h.registered_before front record rest rfl key hk)

/-- **Any records** are valid without a root, or valid up to their first root, or something is wrong with one
of them before there is a root, and with none before it. -/
theorem valid_or_offends (contents : Contents) (records : List Record) :
    (Valid contents records ∧ ∀ key, .root key ∉ records) ∨
      (∃ before root after, records = before ++ .root root :: after ∧ (∀ key, .root key ∉ before) ∧
        Valid contents (before ++ [.root root])) ∨
      ∃ before record after e, records = before ++ record :: after ∧ (∀ key, .root key ∉ before) ∧
        Valid contents before ∧ Offends contents before record e := by
  induction records using List.reverseRecOn with
  | nil => exact .inl ⟨valid_nil, fun key => List.not_mem_nil⟩
  | append_singleton records record ih =>
    rcases ih with ⟨hvalid, hroot⟩ | ⟨before, root, after, rfl, hroot, hvalid⟩ |
      ⟨before, other, after, e, rfl, hroot, hvalid, ho⟩
    -- as long as nothing is wrong and there is no root, it depends on the last record
    · by_cases ho : ∃ e, Offends contents records record e
      · obtain ⟨e, ho⟩ := ho
        exact .inr (.inr ⟨records, record, [], e, rfl, hroot, hvalid, ho⟩)
      · have hall := valid_concat_iff.2 ⟨hvalid, not_exists.1 ho⟩
        by_cases hlast : ∃ key, record = .root key
        · obtain ⟨key, rfl⟩ := hlast
          exact .inr (.inl ⟨records, key, [], rfl, hroot, hall⟩)
        · refine .inl ⟨hall, fun key hm => ?_⟩
          rcases List.mem_append.1 hm with hm | hm
          · exact hroot key hm
          · exact hlast ⟨key, (List.mem_singleton.1 hm).symm⟩
    · refine .inr (.inl ⟨before, root, after ++ [record], ?_, hroot, hvalid⟩)
      rw [List.append_assoc, List.cons_append]
    · refine .inr (.inr ⟨before, other, after ++ [record], e, ?_, hroot, hvalid, ho⟩)
      rw [List.append_assoc, List.cons_append]

end Record

/-! ## Refused records -/

/-- Sorted keys are known by which they are. -/
theorem eq_of_sorted {keys others : List NodeKey} (h : keys.Pairwise fun a b => compare a b = .lt)
    (h' : others.Pairwise fun a b => compare a b = .lt) (hm : ∀ key, key ∈ keys ↔ key ∈ others) :
    keys = others := by
  have hnodup : ∀ {l : List NodeKey}, (l.Pairwise fun a b => compare a b = .lt) → l.Nodup :=
    fun hl => hl.imp fun hlt heq => by simp [heq] at hlt
  have hperm : keys.Perm others := (List.perm_ext_iff_of_nodup (hnodup h) (hnodup h')).2 hm
  refine hperm.eq_of_pairwise (fun a b _ _ (hab : compare a b = .lt) (hba : compare b a = .lt) => ?_) h h'
  exact absurd hba (OrientedCmp.not_lt_of_lt hab)

/-- A table that holds the keys that some records register has them in their order. -/
theorem NodeTable.keys_eq_registered {nodes : NodeTable} {records : List Record}
    (h : ∀ key, key ∈ nodes ↔ .newNode key ∈ records) : nodes.keys = Record.registered records := by
  apply eq_of_sorted ExtTreeMap.ordered_keys (Record.registered_sorted records)
  intro key
  rw [ExtTreeMap.mem_keys, Record.mem_registered, h]

namespace Draft

open Record

variable {d : Draft} {before : List Record} {record : Record} {e : LogError}

/-- A draft refuses a record for what is wrong with it. -/
theorem apply_of_offends (h : ∀ key, key ∈ d.nodes ↔ .newNode key ∈ before)
    (ho : Offends contents before record e) : d.apply contents record = .error e := by
  have hkeys := NodeTable.keys_eq_registered h
  cases ho with
  | registeredTwice again => simp [apply, addNode, (h _).2 again, bind, Except.bind]
  | @unknownKey _ key unknown =>
    have hfind : record.mentions.find? (fun key => key ∉ d.nodes) = some key := by
      simpa only [h] using unknown
    cases record with
    | newNode => simp [mentions] at hfind
    | parentChild parent child handle =>
      -- the parent is looked for first
      by_cases hp : parent ∈ d.nodes
      · by_cases hc : child ∈ d.nodes
        · simp [mentions, hp, hc] at hfind
        · obtain rfl : child = key := by simpa [mentions, hp, hc] using hfind
          simp [apply, addEdge, NodeTable.require, hp, hc, hkeys, bind, Except.bind]
      · obtain rfl : parent = key := by simpa [mentions, hp] using hfind
        simp [apply, addEdge, NodeTable.require, hp, hkeys, bind, Except.bind]
    | firstLevel other | root other | unresolved other =>
      by_cases hk : other ∈ d.nodes
      · simp [mentions, hk] at hfind
      · obtain rfl : other = key := by simpa [mentions, hk] using hfind
        simp [apply, addFirstLevel, addUnresolved, NodeTable.require, hk, hkeys, bind, Except.bind]
  | noArtifacts parent_mem child_mem missing =>
    simp [apply, addEdge, NodeTable.require, (h _).2 parent_mem, (h _).2 child_mem, artifactsFor, missing,
      bind, Except.bind]
  | artifactsAborted parent_mem child_mem aborted =>
    simp [apply, addEdge, NodeTable.require, (h _).2 parent_mem, (h _).2 child_mem, artifactsFor, aborted,
      bind, Except.bind]
  | childAborted parent_mem child_mem found aborted =>
    simp [apply, addEdge, NodeTable.require, (h _).2 parent_mem, (h _).2 child_mem, artifactsFor, found,
      requestFor, aborted, bind, Except.bind]
  | noSelector mem missing =>
    simp [apply, addFirstLevel, NodeTable.require, (h _).2 mem, missing, bind, Except.bind, throw,
      throwThe, MonadExceptOf.throw]
  | selectorAborted mem aborted =>
    simp [apply, addFirstLevel, NodeTable.require, (h _).2 mem, aborted, bind, Except.bind, throw,
      throwThe, MonadExceptOf.throw]

/-- A draft takes a record with which nothing is wrong, unless it is a root. -/
theorem exists_step (h : ∀ key, key ∈ d.nodes ↔ .newNode key ∈ before)
    (hsound : ∀ e, ¬Offends contents before record e) (hroot : ∀ key, record ≠ .root key) :
    ∃ d', d.Step contents record d' := by
  obtain ⟨hnew, hknown, hanswered⟩ := forall_not_offends_iff.1 hsound
  have hmem : ∀ key ∈ record.mentions, key ∈ d.nodes := fun key hk => (h key).2 (hknown key hk)
  cases record with
  | newNode key => exact ⟨_, .newNode fun hk => hnew key rfl ((h key).1 hk)⟩
  | root key => exact absurd rfl (hroot key)
  | firstLevel key =>
    obtain ⟨selector, found⟩ := hanswered
    exact ⟨_, .firstLevel (hmem key List.mem_cons_self) found⟩
  | parentChild parent child handle =>
    obtain ⟨⟨set, found⟩, answered⟩ := hanswered
    exact ⟨_, .parentChild (hmem parent List.mem_cons_self)
      (hmem child (List.mem_cons_of_mem _ List.mem_cons_self)) found answered⟩
  | unresolved parent requested reason => exact ⟨_, .unresolved (hmem parent List.mem_cons_self)⟩

/-- **Runs go over valid records** without a root, and over no others. -/
theorem exists_run_iff {records : List Record} : (∃ d, Draft.empty.Run contents records d) ↔
    Valid contents records ∧ ∀ key, .root key ∉ records := by
  induction records using List.reverseRecOn with
  | nil => exact ⟨fun _ => ⟨valid_nil, fun key => List.not_mem_nil⟩, fun _ => ⟨_, .nil _⟩⟩
  | append_singleton records record ih =>
    simp only [run_concat_iff, valid_concat_iff, List.mem_append, List.mem_singleton, not_or]
    constructor
    · rintro ⟨d', d, hrun, hstep⟩
      obtain ⟨hvalid, hroot⟩ := ih.1 ⟨d, hrun⟩
      have hmem := fun key => (hrun.described key).mem_nodes key
      refine ⟨⟨hvalid, fun e ho => ?_⟩, fun key => ⟨hroot key, ?_⟩⟩
      · -- what is wrong with a record would have stopped the run
        have hmore := apply_eq_more_iff.2 hstep
        rw [apply_of_offends hmem ho] at hmore
        cases hmore
      · rintro rfl
        cases hstep
    · rintro ⟨⟨hvalid, hsound⟩, hroot⟩
      obtain ⟨d, hrun⟩ := ih.2 ⟨hvalid, fun key => (hroot key).1⟩
      have hmem := fun key => (hrun.described key).mem_nodes key
      obtain ⟨d', hstep⟩ := exists_step hmem hsound fun key heq => (hroot key).2 heq.symm
      exact ⟨d', d, hrun, hstep⟩

end Draft

/-! ## Orphans -/

/-- In sorted keys the first one with a property is the smallest one with it. -/
theorem find?_eq_some_iff_least {keys : List NodeKey}
    (h : keys.Pairwise fun a b => compare a b = .lt) {p : NodeKey → Bool} {key : NodeKey} :
    keys.find? p = some key ↔
      key ∈ keys ∧ p key ∧ ∀ other ∈ keys, p other → compare key other ≠ .gt := by
  have hleast : ∀ {key}, keys.find? p = some key →
      ∀ other ∈ keys, p other → compare key other ≠ .gt := by
    intro key hfind other hm hp
    obtain ⟨-, front, rest, rfl, hfront⟩ := List.find?_eq_some_iff_append.1 hfind
    rcases List.mem_append.1 hm with hm | hm
    · -- no key before the first one has the property
      simpa [hp] using hfront other hm
    · rcases List.mem_cons.1 hm with rfl | hm
      · simp
      · rw [List.rel_of_pairwise_cons (List.pairwise_append.1 h).2.1 hm]
        decide
  constructor
  · intro hfind
    exact ⟨List.mem_of_find?_eq_some hfind, List.find?_some hfind, hleast hfind⟩
  · rintro ⟨hm, hp, hmin⟩
    obtain ⟨first, hfirst⟩ := Option.isSome_iff_exists.1 (List.find?_isSome.2 ⟨key, hm, hp⟩)
    have hle := hleast hfirst key hm hp
    have hge := hmin first (List.mem_of_find?_eq_some hfirst) (List.find?_some hfirst)
    -- both are the smallest one
    have heq : compare first key = .eq :=
      OrientedCmp.isLE_antisymm (Ordering.isLE_iff_ne_gt.2 hle) (Ordering.isLE_iff_ne_gt.2 hge)
    rw [hfirst, LawfulEqCmp.eq_of_compare heq]

/-- Of the orphans, if there are any, one is the smallest. -/
theorem Record.exists_least_orphan {records : List Record} {root key : NodeKey}
    (h : Orphan records root key) :
    ∃ least, Orphan records root least ∧
      ∀ other, Orphan records root other → compare least other ≠ .gt := by
  classical
  have hm : ∀ {other}, Orphan records root other → other ∈ registered records :=
    fun ho => mem_registered.2 ho.1
  have hsome : ((registered records).find? fun key => Orphan records root key).isSome :=
    List.find?_isSome.2 ⟨key, hm h, by simpa using h⟩
  obtain ⟨least, hleast⟩ := Option.isSome_iff_exists.1 hsome
  obtain ⟨-, ho, hmin⟩ := (find?_eq_some_iff_least (registered_sorted records)).1 hleast
  exact ⟨least, by simpa using ho, fun other ho => hmin other (hm ho) (by simpa using ho)⟩

namespace Draft.Run

open Record

variable {records : List Record} {d : Draft} {root : NodeKey}
  (h : Draft.empty.Run contents records d)

include h

/-- The keys of a run are those that its records register. -/
theorem mem_nodes_iff (key : NodeKey) : key ∈ d.nodes ↔ .newNode key ∈ records :=
  (h.described key).mem_nodes key

/-- What the records of a run mention is in the table. -/
theorem mem_nodes_of_mentions {record : Record} (hm : record ∈ records) {key : NodeKey}
    (hk : key ∈ record.mentions) : key ∈ d.nodes :=
  (h.mem_nodes_iff key).2 ((exists_run_iff.1 ⟨d, h⟩).1.newNode_mem hm hk)

/-- After a run only a node without a parent can keep a registered root from having its graph. -/
theorem finish_eq (hroot : root ∈ d.nodes) :
    d.finish root = match Graph.orphan? root d.nodes with
      | some node => .error (.orphanNode node.key d.nodes.keys)
      | none => .ok (d.graph root) := by
  have hdescribed := h.described root
  have hfirst : d.firstLevel.values.forM d.nodes.require = .ok () := by
    rw [forM_eq_ok_iff]
    intro key hm
    obtain ⟨selector, hselector⟩ := mem_values_iff.1 hm
    have hlast := (hdescribed.firstLevel_eq selector).symm.trans hselector
    obtain ⟨hrecord, -⟩ := mem_requestedBy_iff.1 (List.mem_of_getLast? hlast)
    exact NodeTable.require_eq_ok_iff.2 (h.mem_nodes_of_mentions hrecord List.mem_cons_self)
  have hedges : (d.nodes.values.forM fun node =>
      (node.parents.toList ++ node.children.toList).forM d.nodes.require) = .ok () := by
    rw [forM_eq_ok_iff]
    intro node hm
    obtain ⟨key, hnode⟩ := mem_values_iff.1 hm
    have hend := hdescribed.node hnode
    rw [forM_eq_ok_iff]
    intro other hother
    rw [NodeTable.require_eq_ok_iff]
    -- the records of the edges mention both ends
    rcases List.mem_append.1 hother with hother | hother
    · obtain ⟨handle, hrecord⟩ := (hend.mem_parents other).1 (ExtTreeSet.mem_toList.1 hother)
      exact h.mem_nodes_of_mentions hrecord List.mem_cons_self
    · obtain ⟨handle, hrecord⟩ := (hend.mem_children other).1 (ExtTreeSet.mem_toList.1 hother)
      exact h.mem_nodes_of_mentions hrecord (List.mem_cons_of_mem _ List.mem_cons_self)
  have hrequire : d.nodes.require root = .ok () := NodeTable.require_eq_ok_iff.2 hroot
  rw [finish, Graph.assemble, hrequire, hfirst, hedges]
  rfl

/-- An orphan is a node other than the root without parents in the table. -/
theorem orphan_iff {key : NodeKey} : Orphan records root key ↔
    key ∈ registered records ∧ key ≠ root ∧ (d.nodes.nodeAt key).parents.isEmpty := by
  have hparents : (d.nodes.nodeAt key).parents.isEmpty ↔
      ∀ parent handle, .parentChild parent key handle ∉ records := by
    rw [ExtTreeSet.isEmpty_iff, ExtTreeSet.eq_empty_iff_forall_not_mem]
    exact forall_congr' fun parent =>
      (not_congr (((h.described root).nodeAt key).mem_parents parent)).trans not_exists
  rw [Orphan, mem_registered, hparents]

/-- The table is searched for the smallest orphan. -/
theorem orphan?_eq : Graph.orphan? root d.nodes =
    ((registered records).find? fun key =>
      key ≠ root ∧ (d.nodes.nodeAt key).parents.isEmpty).map d.nodes.nodeAt := by
  have hkey : ∀ key, (d.nodes.nodeAt key).key = key := fun key => ((h.described root).nodeAt key).key_eq
  rw [Graph.orphan?, NodeTable.values_eq_map_keys, List.find?_map,
    NodeTable.keys_eq_registered h.mem_nodes_iff]
  simp only [Function.comp_def, hkey]

/-- **Without orphans** a registered root has its graph. -/
theorem finish_of_forall_not_orphan (hroot : root ∈ d.nodes) (hno : ∀ key, ¬Orphan records root key) :
    d.finish root = .ok (d.graph root) := by
  have hnone : Graph.orphan? root d.nodes = none := by
    rw [h.orphan?_eq, Option.map_eq_none_iff, List.find?_eq_none]
    intro key hm hp
    exact hno key (h.orphan_iff.2 ⟨hm, by simpa using hp⟩)
  rw [h.finish_eq hroot, hnone]

/-- **With orphans** the smallest one is reported, with all keys that are registered. -/
theorem finish_of_least_orphan {key : NodeKey} (hroot : root ∈ d.nodes) (ho : Orphan records root key)
    (hleast : ∀ other, Orphan records root other → compare key other ≠ .gt) :
    d.finish root = .error (.orphanNode key (registered records)) := by
  have hsome : Graph.orphan? root d.nodes = some (d.nodes.nodeAt key) := by
    rw [h.orphan?_eq, Option.map_eq_some_iff]
    refine ⟨key, (find?_eq_some_iff_least (registered_sorted records)).2 ?_, rfl⟩
    obtain ⟨hm, hp⟩ := h.orphan_iff.1 ho
    exact ⟨hm, by simpa using hp, fun other hm hp =>
      hleast other (h.orphan_iff.2 ⟨hm, by simpa using hp⟩)⟩
  have hkey : (d.nodes.nodeAt key).key = key := ((h.described root).nodeAt key).key_eq
  rw [h.finish_eq hroot, hsome, NodeTable.keys_eq_registered h.mem_nodes_iff]
  simp only [hkey]

/-- **A run finishes** exactly when its root is registered and there are no orphans. -/
theorem exists_finish_iff : (∃ g, d.finish root = .ok g) ↔
    .newNode root ∈ records ∧ ∀ key, ¬Orphan records root key := by
  constructor
  · rintro ⟨g, hg⟩
    obtain ⟨-, hroot, -⟩ := Draft.finish_eq_ok_iff.1 hg
    refine ⟨(h.mem_nodes_iff root).1 hroot, fun key ho => ?_⟩
    obtain ⟨least, ho, hleast⟩ := exists_least_orphan ho
    rw [h.finish_of_least_orphan hroot ho hleast] at hg
    cases hg
  · rintro ⟨hroot, hno⟩
    exact ⟨_, h.finish_of_forall_not_orphan ((h.mem_nodes_iff root).2 hroot) hno⟩

end Draft.Run

/-! ## Graphs and errors from streams -/

section Stream

open Record

variable {records : List Record} {bytes : List UInt8} (hn : ∀ record ∈ records, record.Named)
  (hs : Record.stream records = .ok bytes)

include hn hs

/-- A stream leads to what the draft finishes to after valid records that end with a root. -/
theorem exists_run_of_valid {before after : List Record} {root : NodeKey}
    (hsplit : records = before ++ .root root :: after) (hno : ∀ key, .root key ∉ before)
    (hvalid : Valid contents (before ++ [.root root])) :
    ∃ d, Draft.empty.Run contents before d ∧ root ∈ d.nodes ∧
      materializeBytes contents bytes = d.finish root := by
  obtain ⟨hbefore, hsound⟩ := valid_concat_iff.1 hvalid
  obtain ⟨d, hrun⟩ := Draft.exists_run_iff.2 ⟨hbefore, hno⟩
  obtain ⟨-, hknown, -⟩ := forall_not_offends_iff.1 hsound
  have hroot : root ∈ d.nodes := (hrun.mem_nodes_iff root).2 (hknown root List.mem_cons_self)
  exact ⟨d, hrun, hroot, materializeBytes_of_run (hsplit ▸ hn) (hsplit ▸ hs) hrun hroot⟩

/-- Valid records that end with a root and leave no orphan make a graph. -/
theorem exists_graph_of_valid {before after : List Record} {root : NodeKey}
    (hsplit : records = before ++ .root root :: after) (hno : ∀ key, .root key ∉ before)
    (hvalid : Valid contents (before ++ [.root root])) (horphan : ∀ key, ¬Orphan before root key) :
    ∃ g, materializeBytes contents bytes = .ok g := by
  obtain ⟨d, hrun, hroot, heq⟩ := exists_run_of_valid hn hs hsplit hno hvalid
  exact ⟨_, heq.trans (hrun.finish_of_forall_not_orphan hroot horphan)⟩

/-- Records that fail give the error for it. -/
theorem materializeBytes_of_fails {e : LogError} (h : Fails contents records e) :
    materializeBytes contents bytes = .error e := by
  cases h with
  | offence split no_root valid offends =>
    obtain ⟨d, hrun⟩ := Draft.exists_run_iff.2 ⟨valid, no_root⟩
    have he := Draft.apply_of_offends hrun.mem_nodes_iff offends
    exact materializeBytes_of_refused (split ▸ hn) (split ▸ hs) hrun he
  | noRoot no_root valid =>
    obtain ⟨d, hrun⟩ := Draft.exists_run_iff.2 ⟨valid, no_root⟩
    exact materializeBytes_of_no_root hn hs hrun
  | orphan split no_root valid orphan least =>
    obtain ⟨d, hrun, hroot, heq⟩ := exists_run_of_valid hn hs split no_root valid
    rw [heq, hrun.finish_of_least_orphan hroot orphan least]

omit hn hs in
/-- Any records are valid up to a root and leave no orphan, or fail. -/
theorem Record.valid_or_fails (contents : Contents) (records : List Record) :
    (∃ before root after, records = before ++ .root root :: after ∧ (∀ key, .root key ∉ before) ∧
        Valid contents (before ++ [.root root]) ∧ ∀ key, ¬Orphan before root key) ∨
      ∃ e, Fails contents records e := by
  rcases valid_or_offends contents records with ⟨hvalid, hno⟩ | ⟨before, root, after, hsplit, hno, hvalid⟩ |
    ⟨before, record, after, e, hsplit, hno, hvalid, ho⟩
  · exact .inr ⟨_, .noRoot hno hvalid⟩
  · by_cases horphan : ∃ key, Orphan before root key
    · obtain ⟨_, horphan⟩ := horphan
      obtain ⟨key, ho, hleast⟩ := exists_least_orphan horphan
      exact .inr ⟨_, .orphan hsplit hno hvalid ho hleast⟩
    · exact .inl ⟨before, root, after, hsplit, hno, hvalid, not_exists.1 horphan⟩
  · exact .inr ⟨e, .offence hsplit hno hvalid ho⟩

/-- **Which records make a graph**: exactly those that are valid up to their first root and leave no node but
the root without a parent. All others fail, with the error of the first record with which something is
wrong, or with a missing root, or with the smallest orphan. -/
theorem materializeBytes_ok_and_error_iff :
    ((∃ g, materializeBytes contents bytes = .ok g) ↔
      ∃ before root after, records = before ++ .root root :: after ∧ (∀ key, .root key ∉ before) ∧
        Valid contents (before ++ [.root root]) ∧ ∀ key, ¬Orphan before root key) ∧
    ∀ e, materializeBytes contents bytes = .error e ↔ Fails contents records e := by
  refine ⟨⟨?_, ?_⟩, fun e => ⟨fun he => ?_, materializeBytes_of_fails hn hs⟩⟩
  · rintro ⟨g, hg⟩
    rcases valid_or_fails contents records with h | ⟨e, h⟩
    · exact h
    · exact nomatch hg.symm.trans (materializeBytes_of_fails hn hs h)
  · rintro ⟨before, root, after, hsplit, hno, hvalid, horphan⟩
    exact exists_graph_of_valid hn hs hsplit hno hvalid horphan
  · rcases valid_or_fails contents records with ⟨_, _, _, hsplit, hno, hvalid, horphan⟩ | ⟨e', h⟩
    · obtain ⟨g, hg⟩ := exists_graph_of_valid hn hs hsplit hno hvalid horphan
      exact nomatch hg.symm.trans he
    · obtain rfl : e' = e := Except.error.inj ((materializeBytes_of_fails hn hs h).symm.trans he)
      exact h

end Stream

/-- The sample log is valid up to its root and leaves no orphan. -/
theorem materializeBytes_ok_and_error_iff_sample :
    ∃ bytes, Record.stream Sample.log = .ok bytes ∧ (∀ record ∈ Sample.log, record.Named) ∧
      (∃ before root after, Sample.log = before ++ .root root :: after ∧ (∀ key, .root key ∉ before) ∧
        Record.Valid Sample.lookups (before ++ [.root root]) ∧
        ∀ key, ¬Record.Orphan before root key) ∧
      ∀ e, materializeBytes Sample.lookups bytes = .error e ↔
        Record.Fails Sample.lookups Sample.log e := by
  obtain ⟨bytes, g, hs, hg, -⟩ := Sample.exists_graph
  have h := @materializeBytes_ok_and_error_iff Sample.lookups _ _ Sample.named hs
  exact ⟨bytes, hs, Sample.named, h.1.1 ⟨g, hg⟩, h.2⟩

end ResolutionLog
