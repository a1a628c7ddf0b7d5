import Mathlib.Data.List.Induction
import Mathlib.Data.List.Nodup

/-! # Lists without their repeats

`List.eraseDups` keeps the first of all equal members of a list, in its place. What this does to a list that grows at
its end, to a part of a list, and to two lists in a row; the last of these depends on the first list only through
what it has without its repeats (`eraseDups_append_congr`). -/

namespace ResolutionLog

section LawfulBEq

variable {α : Type} [BEq α] [LawfulBEq α]

/-- What comes up for the second time is left out. -/
theorem eraseDups_concat (l : List α) (a : α) :
    (l ++ [a]).eraseDups = if a ∈ l.eraseDups then l.eraseDups else l.eraseDups ++ [a] := by
  rw [List.eraseDups_append]
  by_cases h : a ∈ l
  · rw [if_pos (List.mem_eraseDups.2 h)]
    simp [List.removeAll, h]
  · rw [if_neg (mt List.mem_eraseDups.1 h)]
    simp [List.removeAll, h, List.eraseDups_cons]

/-- A list that is not empty has a member that is no repeat. -/
theorem eraseDups_ne_nil {l : List α} (h : l ≠ []) : l.eraseDups ≠ [] := by
  obtain ⟨a, ha⟩ := List.exists_mem_of_ne_nil l h
  exact List.ne_nil_of_mem (List.mem_eraseDups.2 ha)

/-- Without its repeats a list has none. -/
theorem nodup_eraseDups (l : List α) : l.eraseDups.Nodup := by
  induction l using List.reverseRecOn with
  | nil => exact List.nodup_nil
  | append_singleton l a ih =>
    rw [eraseDups_concat]
    split
    · exact ih
    · next h => exact List.concat_eq_append ▸ (List.nodup_concat _ _).2 ⟨h, ih⟩

/-- Without its repeats a list is not longer. -/
theorem length_eraseDups_le (l : List α) : l.eraseDups.length ≤ l.length := by
  induction l using List.reverseRecOn with
  | nil => exact Nat.le_refl 0
  | append_singleton l a ih =>
    rw [eraseDups_concat, List.length_append, List.length_singleton]
    split
    · exact Nat.le_succ_of_le ih
    · rw [List.length_append, List.length_singleton]
      exact Nat.succ_le_succ ih

/-- What comes up next has the position that it keeps, whatever follows. -/
theorem idxOf_eraseDups_append_cons (l rest : List α) (a : α) :
    (l ++ a :: rest).eraseDups.idxOf a = l.eraseDups.idxOf a := by
  rw [List.eraseDups_append]
  by_cases h : a ∈ l
  · exact List.idxOf_append_of_mem (List.mem_eraseDups.2 h)
  · have hne : a ∉ l.eraseDups := mt List.mem_eraseDups.1 h
    have hfirst : (a :: rest).removeAll l = a :: rest.removeAll l := by simp [List.removeAll, h]
    rw [List.idxOf_append_of_notMem hne, hfirst, List.eraseDups_cons, List.idxOf_cons_self, Nat.add_zero,
      List.idxOf_eq_length hne]

/-- Lists with the same members in the same order, but for repeats, may be followed by the same list. -/
theorem eraseDups_append_congr {l l' : List α} (h : l.eraseDups = l'.eraseDups) (rest : List α) :
    (l ++ rest).eraseDups = (l' ++ rest).eraseDups := by
  induction rest using List.reverseRecOn with
  | nil => rwa [List.append_nil, List.append_nil]
  | append_singleton rest a ih =>
    rw [← List.append_assoc, ← List.append_assoc, eraseDups_concat, eraseDups_concat, ih]

/-- Repeats may be left out before or after a choice. -/
theorem eraseDups_filter (p : α → Bool) (l : List α) :
    (l.filter p).eraseDups = l.eraseDups.filter p := by
  -- the recursion goes on with what is left of the tail without the head
  induction hlength : l.length using Nat.strongRecOn generalizing l with
  | ind n ih =>
    cases l with
    | nil => rfl
    | cons a l =>
      have hlt : (l.filter fun b => !b == a).length < n :=
        hlength ▸ Nat.lt_succ_of_le (List.length_filter_le _ _)
      rw [List.eraseDups_cons]
      by_cases ha : p a = true
      · rw [List.filter_cons_of_pos ha, List.filter_cons_of_pos ha, List.eraseDups_cons, ← ih _ hlt _ rfl,
          List.filter_filter, List.filter_filter]
        simp only [Bool.and_comm]
      · rw [List.filter_cons_of_neg ha, List.filter_cons_of_neg ha, ← ih _ hlt _ rfl, List.filter_filter]
        -- what is chosen differs from the head, which is not
        congr 1
        refine List.filter_congr fun b _ => ?_
        by_cases hb : b = a
        · subst hb
          simp [ha]
        · simp [hb]

/-- What follows a list may be replaced by what is the same but for repeats. -/
theorem eraseDups_append_congr_right (l : List α) {rest rest' : List α} (h : rest.eraseDups = rest'.eraseDups) :
    (l ++ rest).eraseDups = (l ++ rest').eraseDups := by
  rw [List.eraseDups_append, List.eraseDups_append, List.removeAll, List.removeAll, eraseDups_filter,
    eraseDups_filter, h]

/-- Nothing is gained by what is there already. -/
theorem eraseDups_append_of_forall_mem {l rest : List α} (h : ∀ a ∈ rest, a ∈ l) :
    (l ++ rest).eraseDups = l.eraseDups := by
  induction rest using List.reverseRecOn with
  | nil => rw [List.append_nil]
  | append_singleton rest a ih =>
    have hlast : (l ++ rest).eraseDups = l.eraseDups := ih fun b hb => h b (List.mem_append_left _ hb)
    have ha : a ∈ l := h a (List.mem_append_right _ List.mem_cons_self)
    rw [← List.append_assoc, eraseDups_concat, hlast, if_pos (List.mem_eraseDups.2 ha)]

/-! ### Lists in place of members -/

variable {β : Type}

/-- In each place there may be another list that is the same but for repeats. -/
theorem eraseDups_flatMap_congr {l : List β} {f g : β → List α} (h : ∀ b ∈ l, (f b).eraseDups = (g b).eraseDups) :
    (l.flatMap f).eraseDups = (l.flatMap g).eraseDups := by
  induction l with
  | nil => rfl
  | cons b l ih =>
    have hrest := ih fun other hm => h other (List.mem_cons_of_mem b hm)
    rw [List.flatMap_cons, List.flatMap_cons, eraseDups_append_congr (h b List.mem_cons_self),
      eraseDups_append_congr_right _ hrest]

/-- A repeated member brings nothing new. -/
theorem eraseDups_flatMap_eraseDups [BEq β] [LawfulBEq β] (l : List β) (f : β → List α) :
    (l.eraseDups.flatMap f).eraseDups = (l.flatMap f).eraseDups := by
  induction l using List.reverseRecOn with
  | nil => rfl
  | append_singleton l b ih =>
    rw [eraseDups_concat, List.flatMap_append, List.flatMap_singleton]
    split
    · next hb =>
      have hold : ∀ a ∈ f b, a ∈ l.flatMap f := fun a ha =>
        List.mem_flatMap.2 ⟨b, List.mem_eraseDups.1 hb, ha⟩
      rw [ih, eraseDups_append_of_forall_mem hold]
    · rw [List.flatMap_append, List.flatMap_singleton]
      exact eraseDups_append_congr ih (f b)

/-- Repeats are left out once for all. -/
theorem eraseDups_eraseDups (l : List α) : l.eraseDups.eraseDups = l.eraseDups := by
  have h := eraseDups_flatMap_eraseDups l fun a => [a]
  rwa [List.flatMap_singleton', List.flatMap_singleton'] at h

end LawfulBEq

/-! ## Positions -/

/-- What comes first in a part of a list comes first in the list. -/
theorem idxOf_lt_of_idxOf_filter_lt {α : Type} [DecidableEq α] {p : α → Bool} {l : List α} {a b : α}
    (ha : p a = true) (hb : p b = true) (h : (l.filter p).idxOf a < (l.filter p).idxOf b) :
    l.idxOf a < l.idxOf b := by
  induction l with
  | nil => simp at h
  | cons c l ih =>
    -- neither position moves where the head is one of the two
    by_cases hca : c = a
    · subst hca
      have hne : c ≠ b := by
        rintro rfl
        exact absurd h (Nat.lt_irrefl _)
      rw [List.idxOf_cons_self, List.idxOf_cons_ne l hne]
      exact Nat.succ_pos _
    · by_cases hcb : c = b
      · subst hcb
        rw [List.filter_cons_of_pos hb, List.idxOf_cons_self] at h
        exact absurd h (Nat.not_lt_zero _)
      · rw [List.idxOf_cons_ne l hca, List.idxOf_cons_ne l hcb]
        refine Nat.succ_lt_succ (ih ?_)
        by_cases hc : p c = true
        · rw [List.filter_cons_of_pos hc, List.idxOf_cons_ne _ hca, List.idxOf_cons_ne _ hcb] at h
          exact Nat.lt_of_succ_lt_succ h
        · rwa [List.filter_cons_of_neg hc] at h

/-- Without repeats, the members of a list are in the order in which they first come. -/
theorem pairwise_idxOf_eraseDups {α : Type} [DecidableEq α] (l : List α) :
    l.eraseDups.Pairwise (fun a b => l.idxOf a < l.idxOf b) := by
  -- the recursion goes on with what is left of the tail without the head
  induction hlength : l.length using Nat.strongRecOn generalizing l with
  | ind n ih =>
    cases l with
    | nil => exact .nil
    | cons c l =>
      have hlt : (l.filter fun b => !b == c).length < n :=
        hlength ▸ Nat.lt_succ_of_le (List.length_filter_le _ _)
      have hother : ∀ {b}, b ∈ (l.filter fun b => !b == c).eraseDups → (!b == c) = true ∧ c ≠ b := by
        intro b hb
        have hne := (List.mem_filter.1 (List.mem_eraseDups.1 hb)).2
        exact ⟨hne, fun heq => by simp [heq] at hne⟩
      rw [List.eraseDups_cons, List.pairwise_cons]
      refine ⟨fun b hb => ?_, (ih _ hlt _ rfl).imp_of_mem fun ha hb h => ?_⟩
      · rw [List.idxOf_cons_self, List.idxOf_cons_ne l (hother hb).2]
        exact Nat.succ_pos _
      · obtain ⟨hpa, hne⟩ := hother ha
        obtain ⟨hpb, hne'⟩ := hother hb
        rw [List.idxOf_cons_ne l hne, List.idxOf_cons_ne l hne']
        exact Nat.succ_lt_succ (idxOf_lt_of_idxOf_filter_lt hpa hpb h)

end ResolutionLog
