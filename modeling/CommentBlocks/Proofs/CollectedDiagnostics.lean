import CommentBlocks.Diagnostic.Queue
import Mathlib.Data.List.Induction
import Mathlib.Data.List.Nodup

/-!
# What a diagnostic queue holds

Diagnostics arrive in an order that nobody controls, and some arrive twice. The queue is to make
that invisible: what it gives back should be told by what was reported, not by when.

Two facts carry this. The queue holds what was pushed, without repetitions (`Holds`), so two orders
of arrival leave the same diagnostics in it, each once. And sorting by place leaves no choice
between diagnostics at different places (`sortByLocation_eq_of_perm`). Diagnostics at one place do
keep the order in which they arrived, which is why places have to differ.
-/

namespace CommentBlocks

/-! ## The order of places -/

instance : Std.TransOrd Origin := inferInstanceAs (Std.TransCmp (compareOn Origin.name))

theorem Origin.compare_eq_iff {a b : Origin} : compare a b = .eq ↔ a = b := by
  constructor
  · intro h
    have hname : a.name = b.name := Std.LawfulEqOrd.eq_of_compare h
    cases a
    cases b
    exact congrArg Origin.mk hname
  · rintro rfl
    exact Std.ReflOrd.compare_self

/-- Places are ordered by document, line and character. -/
instance : Ord Location where
  compare := compareLex (compareOn Location.origin)
    (compareLex (compareOn (·.position.line)) (compareOn (·.position.character)))

instance : Std.TransOrd Location :=
  inferInstanceAs (Std.TransCmp (compareLex _ (compareLex _ _)))

theorem Location.compare_eq_then (p q : Location) :
    compare p q
      = (compare p.origin q.origin).then
        ((compare p.position.line q.position.line).then
          (compare p.position.character q.position.character)) := rfl

namespace Diagnostic

variable {a b : Diagnostic}

/-- What diagnostics are sorted by: document, line and character, if there is a place. -/
def sortKey (diagnostic : Diagnostic) : Option (Origin × Nat × Nat) :=
  diagnostic.location.map fun location ↦
    (location.origin, location.position.line, location.position.character)

theorem compareLocation_eq (a b : Diagnostic) :
    a.compareLocation b = compare a.location b.location := by
  unfold compareLocation
  split <;> simp only [*] <;> rfl

instance : Std.TransCmp compareLocation := by
  have heq : compareLocation = compareOn Diagnostic.location :=
    funext fun a ↦ funext fun b ↦ compareLocation_eq a b
  rw [heq]
  infer_instance

theorem compareLocation_total (a b : Diagnostic) :
    ((a.compareLocation b).isLE || (b.compareLocation a).isLE) = true := by
  have hswap : b.compareLocation a = (a.compareLocation b).swap := Std.OrientedCmp.eq_swap
  rw [hswap]
  cases a.compareLocation b <;> rfl

theorem compareLocation_eq_eq_iff : a.compareLocation b = .eq ↔ a.sortKey = b.sortKey := by
  rw [compareLocation_eq, sortKey, sortKey]
  cases a.location with
  | none => cases b.location <;> simp [compare]
  | some p =>
    cases b.location with
    | none => simp [compare]
    | some q =>
      have hcompare : compare (some p) (some q) = compare p q := rfl
      rw [hcompare, Location.compare_eq_then, Ordering.then_eq_eq, Ordering.then_eq_eq,
        Origin.compare_eq_iff, Nat.compare_eq_eq, Nat.compare_eq_eq]
      simp

theorem compare_origin?_eq_lt (hle : (a.compareLocation b).isLE = true)
    (hne : a.origin? ≠ b.origin?) : compare a.origin? b.origin? = .lt := by
  rw [compareLocation_eq] at hle
  rw [origin?, origin?] at hne ⊢
  cases ha : a.location with
  | none =>
    cases hb : b.location with
    | none => exact absurd (by rw [ha, hb]) hne
    | some q => rfl
  | some p =>
    rw [ha] at hle hne
    cases hb : b.location with
    | none => simp [hb, compare] at hle
    | some q =>
      rw [hb] at hle hne
      rcases Ordering.isLE_then_iff_or.mp hle with hlt | ⟨heq, -⟩
      · exact hlt
      · have horigin : p.origin = q.origin := Origin.compare_eq_iff.mp heq
        exact absurd (congrArg some horigin) hne

end Diagnostic

namespace DiagnosticQueue

/-! ## Sorting -/

theorem sortByLocation_perm (diagnostics : List Diagnostic) :
    (sortByLocation diagnostics).Perm diagnostics :=
  List.mergeSort_perm diagnostics _

theorem pairwise_sortByLocation (diagnostics : List Diagnostic) :
    (sortByLocation diagnostics).Pairwise fun a b ↦ (a.compareLocation b).isLE = true :=
  List.pairwise_mergeSort (fun _ _ _ ↦ Std.TransCmp.isLE_trans) Diagnostic.compareLocation_total
    diagnostics

/-- **Sorting leaves no choice between diagnostics at different places.** -/
theorem sortByLocation_eq_of_perm {xs ys : List Diagnostic} (hperm : xs.Perm ys)
    (hplaces : ∀ a ∈ xs, ∀ b ∈ xs, a.sortKey = b.sortKey → a = b) :
    sortByLocation xs = sortByLocation ys := by
  have hsorted : (sortByLocation xs).Perm (sortByLocation ys) :=
    (sortByLocation_perm xs).trans (hperm.trans (sortByLocation_perm ys).symm)
  refine hsorted.eq_of_pairwise ?_ (pairwise_sortByLocation xs) (pairwise_sortByLocation ys)
  intro a b ha hb hle hge
  have hb' : b ∈ sortByLocation xs := hsorted.mem_iff.mpr hb
  refine hplaces a ((sortByLocation_perm xs).mem_iff.mp ha) b
    ((sortByLocation_perm xs).mem_iff.mp hb') ?_
  exact Diagnostic.compareLocation_eq_eq_iff.mp (Std.OrientedCmp.isLE_antisymm hle hge)

/-! ## Collecting -/

theorem eraseDups_concat {α : Type} [DecidableEq α] (xs : List α) (x : α) :
    (xs ++ [x]).eraseDups = if x ∈ xs then xs.eraseDups else xs.eraseDups ++ [x] := by
  rw [List.eraseDups_append, List.removeAll]
  by_cases h : x ∈ xs
  · simp [h]
  · simp [h, List.eraseDups_cons]

theorem nodup_eraseDups {α : Type} [DecidableEq α] (xs : List α) : xs.eraseDups.Nodup := by
  induction xs using List.reverseRecOn with
  | nil => exact List.nodup_nil
  | append_singleton xs x ih =>
    rw [eraseDups_concat]
    by_cases h : x ∈ xs
    · rw [if_pos h]
      exact ih
    · rw [if_neg h]
      refine ih.append (List.nodup_singleton x) ?_
      simp [h]

/-- The queue holds the diagnostics `pushed`, each at its first arrival, and has counted them. -/
structure Holds (pushed : List Diagnostic) (queue : DiagnosticQueue) : Prop where
  /-- Repetitions are dropped. -/
  toList_eq : queue.toList = pushed.eraseDups
  /-- What was pushed is known. -/
  mem_seen : ∀ {diagnostic : Diagnostic}, diagnostic ∈ queue.seen ↔ diagnostic ∈ pushed
  /-- The errors among those held are counted. -/
  errors : queue.errorCount = queue.toList.countP Diagnostic.isError
  /-- The warnings among those held are counted. -/
  warnings : queue.warningCount = queue.toList.countP Diagnostic.isWarning

theorem holds_empty : Holds [] empty where
  toList_eq := rfl
  mem_seen := by simp [empty]
  errors := rfl
  warnings := rfl

namespace Holds

variable {pushed : List Diagnostic} {queue : DiagnosticQueue}

theorem push (h : Holds pushed queue) (diagnostic : Diagnostic) :
    Holds (pushed ++ [diagnostic]) (queue.push diagnostic) := by
  by_cases hmem : diagnostic ∈ pushed
  · have hpush : queue.push diagnostic = queue := if_pos (h.mem_seen.mpr hmem)
    rw [hpush]
    refine ⟨?_, ?_, h.errors, h.warnings⟩
    · rw [eraseDups_concat, if_pos hmem]
      exact h.toList_eq
    · intro other
      rw [h.mem_seen, List.mem_append, List.mem_singleton]
      constructor
      · exact Or.inl
      · rintro (hother | rfl)
        · exact hother
        · exact hmem
  · have hseen : ¬queue.seen.contains diagnostic = true := fun hseen ↦ hmem (h.mem_seen.mp hseen)
    have hlist : (queue.push diagnostic).toList = queue.toList ++ [diagnostic] := by
      simp [DiagnosticQueue.push, hseen, toList]
    refine ⟨?_, ?_, ?_, ?_⟩
    · rw [hlist, eraseDups_concat, if_neg hmem, h.toList_eq]
    · intro other
      rw [DiagnosticQueue.push, if_neg hseen, Std.HashSet.mem_insert, beq_iff_eq, h.mem_seen,
        List.mem_append, List.mem_singleton, or_comm, eq_comm]
    · rw [hlist, List.countP_append, List.countP_singleton, ← h.errors, DiagnosticQueue.push,
        if_neg hseen]
      dsimp only
      split <;> rfl
    · rw [hlist, List.countP_append, List.countP_singleton, ← h.warnings, DiagnosticQueue.push,
        if_neg hseen]
      dsimp only
      split <;> rfl

theorem extend (h : Holds pushed queue) (diagnostics : List Diagnostic) :
    Holds (pushed ++ diagnostics) (queue.extend diagnostics) := by
  induction diagnostics generalizing pushed queue with
  | nil => simpa [DiagnosticQueue.extend] using h
  | cons diagnostic diagnostics ih =>
    rw [List.append_cons]
    exact ih (h.push diagnostic)

end Holds

theorem holds_extend (diagnostics : List Diagnostic) :
    Holds diagnostics (empty.extend diagnostics) :=
  holds_empty.extend diagnostics

/-! ## What comes out -/

theorem eraseDups_perm {xs ys : List Diagnostic} (h : xs.Perm ys) :
    xs.eraseDups.Perm ys.eraseDups := by
  rw [List.perm_ext_iff_of_nodup (nodup_eraseDups xs) (nodup_eraseDups ys)]
  intro diagnostic
  rw [List.mem_eraseDups, List.mem_eraseDups, h.mem_iff]

/-- **What a queue gives back does not depend on the order of arrival**, if different diagnostics
have different places. -/
theorem flush_extend_of_perm {xs ys : List Diagnostic} (hperm : xs.Perm ys)
    (hplaces : ∀ a ∈ xs, ∀ b ∈ xs, a.sortKey = b.sortKey → a = b) :
    (empty.extend xs).flush.1 = (empty.extend ys).flush.1 := by
  rw [flush, flush, (holds_extend xs).toList_eq, (holds_extend ys).toList_eq]
  refine sortByLocation_eq_of_perm (eraseDups_perm hperm) ?_
  intro a ha b hb
  exact hplaces a (List.mem_eraseDups.mp ha) b (List.mem_eraseDups.mp hb)

theorem toList_extend_perm {diagnostics : List Diagnostic} (h : diagnostics.Nodup) :
    (empty.extend diagnostics).toList.Perm diagnostics := by
  rw [(holds_extend diagnostics).toList_eq,
    List.perm_ext_iff_of_nodup (nodup_eraseDups diagnostics) h]
  exact fun _ ↦ List.mem_eraseDups

theorem flush_extend_perm {diagnostics : List Diagnostic} (h : diagnostics.Nodup) :
    (empty.extend diagnostics).flush.1.Perm diagnostics :=
  (sortByLocation_perm _).trans (toList_extend_perm h)

end DiagnosticQueue

end CommentBlocks
