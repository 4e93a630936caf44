import Mathlib.Data.Multiset.Bind

/-!
# Interleavings

An interleaving of several lists arises by drawing, again and again, the first element of one of
them, until all are used up. `Drawn` is a drawing in progress: which lists there were, what has been
drawn, and what remains. It is told from the end, so that one more element drawn is one more step,
and the lists form a multiset, since it does not matter in which order they are looked at.

An interleaving holds the elements of its lists, each as often (`Interleaving.perm_flatten`), and
holds each list in order (`Interleaving.sublist`).
-/

namespace CommentBlocks

variable {α : Type}

/-- From the fronts of `lists` the elements `drawn` were taken, in this order, and `left` remains. A
list that is used up may be put aside. -/
inductive Drawn (lists : Multiset (List α)) : List α → Multiset (List α) → Prop where
  /-- Nothing was drawn yet. -/
  | start : Drawn lists [] lists
  /-- The first element of a list is drawn. -/
  | next {drawn rest : List α} {x : α} {left : Multiset (List α)} :
    Drawn lists drawn ((x :: rest) ::ₘ left) → Drawn lists (drawn ++ [x]) (rest ::ₘ left)
  /-- A list that is used up is put aside. -/
  | discard {drawn : List α} {left : Multiset (List α)} :
    Drawn lists drawn ([] ::ₘ left) → Drawn lists drawn left

/-- `merged` holds the elements of all of `lists`, those of each list in order. -/
def Interleaving (lists : List (List α)) (merged : List α) : Prop :=
  Drawn (lists : Multiset (List α)) merged 0

/-- The list `l` among those that remain, unless it is used up. -/
def remaining [DecidableEq α] (l : List α) : Multiset (List α) := if l = [] then 0 else {l}

namespace Drawn

variable {lists left : Multiset (List α)} {drawn : List α}

/-- A further list may be there from the start, untouched. -/
theorem cons (h : Drawn lists drawn left) (l : List α) :
    Drawn (l ::ₘ lists) drawn (l ::ₘ left) := by
  induction h with
  | start => exact start
  | next _ ih =>
    rw [Multiset.cons_swap] at ih ⊢
    exact next ih
  | discard _ ih =>
    rw [Multiset.cons_swap] at ih
    exact discard ih

/-- A list that may be used up is put aside if it is. -/
theorem settle [DecidableEq α] {l : List α} (h : Drawn lists drawn (l ::ₘ left)) :
    Drawn lists drawn (remaining l + left) := by
  rw [remaining]
  by_cases hl : l = []
  · rw [if_pos hl, zero_add]
    rw [hl] at h
    exact discard h
  · rw [if_neg hl, Multiset.singleton_add]
    exact h

theorem coe_add_bind (h : Drawn lists drawn left) :
    (drawn : Multiset α) + left.bind (fun l ↦ (l : Multiset α))
      = lists.bind fun l ↦ (l : Multiset α) := by
  induction h with
  | start => rw [Multiset.coe_nil, zero_add]
  | @next drawn rest x left _ ih =>
    have hx : ((x :: rest : List α) : Multiset α) = {x} + (rest : Multiset α) := by
      rw [Multiset.singleton_add, Multiset.cons_coe]
    rw [← ih, Multiset.cons_bind, Multiset.cons_bind, ← Multiset.coe_add, Multiset.coe_singleton,
      hx, add_assoc, add_assoc]
  | discard _ ih => rw [← ih, Multiset.cons_bind, Multiset.coe_nil, zero_add]

theorem exists_eq_append (h : Drawn lists drawn left) {l : List α} (hl : l ∈ lists) :
    ∃ sent owed, l = sent ++ owed ∧ sent.Sublist drawn ∧ (owed ∈ left ∨ owed = []) := by
  induction h with
  | start => exact ⟨[], l, rfl, List.nil_sublist _, Or.inl hl⟩
  | @next drawn rest x left _ ih =>
    obtain ⟨sent, owed, rfl, hsent, howed⟩ := ih
    rcases howed with howed | rfl
    · rcases Multiset.mem_cons.mp howed with rfl | howed
      -- either `x` was drawn from what this list is owed, or from another list
      · refine ⟨sent ++ [x], rest, ?_, hsent.append_right [x], ?_⟩
        · rw [List.append_assoc, List.singleton_append]
        · exact Or.inl (Multiset.mem_cons_self rest left)
      · refine ⟨sent, owed, rfl, hsent.trans (List.sublist_append_left drawn [x]), ?_⟩
        exact Or.inl (Multiset.mem_cons_of_mem howed)
    · exact ⟨sent, [], rfl, hsent.trans (List.sublist_append_left drawn [x]), Or.inr rfl⟩
  | discard _ ih =>
    obtain ⟨sent, owed, rfl, hsent, howed⟩ := ih
    refine ⟨sent, owed, rfl, hsent, ?_⟩
    rcases howed with howed | rfl
    · rcases Multiset.mem_cons.mp howed with rfl | howed
      · exact Or.inr rfl
      · exact Or.inl howed
    · exact Or.inr rfl

end Drawn

namespace Interleaving

variable {lists : List (List α)} {merged : List α}

theorem perm_flatten (h : Interleaving lists merged) : merged.Perm lists.flatten := by
  have hcoe := h.coe_add_bind
  rw [Multiset.zero_bind, add_zero, Multiset.coe_bind, List.flatMap_id'] at hcoe
  exact Multiset.coe_eq_coe.mp hcoe

theorem sublist (h : Interleaving lists merged) {l : List α} (hl : l ∈ lists) :
    l.Sublist merged := by
  obtain ⟨sent, owed, rfl, hsent, howed⟩ := h.exists_eq_append (Multiset.mem_coe.mpr hl)
  rcases howed with howed | rfl
  · exact absurd howed (Multiset.notMem_zero owed)
  · rw [List.append_nil]
    exact hsent

end Interleaving

end CommentBlocks
