import CommentBlocks.Proofs.ByteOrder
import Mathlib.Data.List.DropRight

/-!
# Runs of a diagnostic queue

A queue is pushed to, extended and flushed, in any order and as often as its users like. At every
moment it holds what has arrived since the last flush, each diagnostic once and where it arrived
first, and its counts are those of what it holds (`holds_run`). One step keeps this
(`Holds.step`): pushing and extending add to what has arrived, and after a flush nothing has.

What a flush hands out is told by three facts about sorting: it is what the queue held, it is in
order of places, and diagnostics at one place are as they arrived (`filter_sortByLocation`). The
order of places is spelled out as `Diagnostic.NotAfter`, in which documents are ordered by the bytes
of their names.
-/

namespace CommentBlocks

/-! ## The order of what comes out -/

namespace Diagnostic

/-- The place of `a` is not after that of `b`: no place comes first, then documents by the bytes of
their names, then lines, then characters. -/
def NotAfter (a b : Diagnostic) : Prop :=
  match a.location, b.location with
  | none, _ => True
  | some _, none => False
  | some p, some q =>
    p.origin.bytes < q.origin.bytes
      ∨ p.origin = q.origin
        ∧ (p.position.line < q.position.line
          ∨ p.position.line = q.position.line ∧ p.position.character ≤ q.position.character)

theorem isLE_compareLocation_iff {a b : Diagnostic} :
    (a.compareLocation b).isLE = true ↔ a.NotAfter b := by
  unfold compareLocation NotAfter
  rcases a.location with - | p <;> rcases b.location with - | q
  · exact iff_of_true rfl trivial
  · exact iff_of_true rfl trivial
  · exact iff_of_false Bool.false_ne_true id
  · dsimp only
    rw [Ordering.isLE_then_iff_or, Ordering.isLE_then_iff_or, Origin.compare_eq_lt_iff,
      Origin.compare_eq_iff, Nat.compare_eq_lt, Nat.compare_eq_eq, Nat.isLE_compare]

end Diagnostic

namespace DiagnosticQueue

/-- **Diagnostics at one place come out as they arrived.** -/
theorem filter_sortByLocation (diagnostics : List Diagnostic) (key : Option (Origin × Nat × Nat)) :
    (sortByLocation diagnostics).filter (·.sortKey = key)
      = diagnostics.filter (·.sortKey = key) := by
  have hsame : (diagnostics.filter (·.sortKey = key)).Pairwise
      fun a b ↦ (a.compareLocation b).isLE = true := by
    refine List.pairwise_of_forall_mem_list ?_
    intro a ha b hb
    have hakey : a.sortKey = key := by simpa using (List.mem_filter.mp ha).2
    have hbkey : b.sortKey = key := by simpa using (List.mem_filter.mp hb).2
    rw [Diagnostic.compareLocation_eq_eq_iff.mpr (hakey.trans hbkey.symm)]
    rfl
  -- a part that is in order already is kept as it is, and no more can come out than went in
  have hkept : (diagnostics.filter (·.sortKey = key)).Sublist (sortByLocation diagnostics) :=
    List.sublist_mergeSort (fun _ _ _ ↦ Std.TransCmp.isLE_trans) Diagnostic.compareLocation_total
      hsame List.filter_sublist
  have hsublist := hkept.filter (·.sortKey = key)
  rw [List.filter_filter] at hsublist
  simp only [Bool.and_self] at hsublist
  exact (hsublist.eq_of_length ((sortByLocation_perm diagnostics).filter _).length_eq.symm).symm

end DiagnosticQueue

/-! ## Steps and runs -/

/-- What is done to a queue. -/
inductive QueueStep where
  /-- A diagnostic is pushed. -/
  | push (diagnostic : Diagnostic)
  /-- Several are, in order. -/
  | extend (diagnostics : List Diagnostic)
  /-- Everything is taken out. -/
  | flush
deriving DecidableEq

namespace QueueStep

def arrivals : QueueStep → List Diagnostic
  | push diagnostic => [diagnostic]
  | extend diagnostics => diagnostics
  | flush => []

def apply (queue : DiagnosticQueue) : QueueStep → DiagnosticQueue
  | push diagnostic => queue.push diagnostic
  | extend diagnostics => queue.extend diagnostics
  | flush => queue.flush.2

end QueueStep

namespace DiagnosticQueue

/-- A new queue after some steps. -/
def run (steps : List QueueStep) : DiagnosticQueue := steps.foldl QueueStep.apply empty

/-- The diagnostics that have arrived since the last flush, in order of arrival. -/
def sinceFlush (steps : List QueueStep) : List Diagnostic :=
  (steps.rtakeWhile (· ≠ .flush)).flatMap QueueStep.arrivals

theorem sinceFlush_concat_flush (steps : List QueueStep) : sinceFlush (steps ++ [.flush]) = [] := by
  rw [sinceFlush, List.rtakeWhile_concat_neg _ _ _ (by decide), List.flatMap_nil]

theorem sinceFlush_concat {step : QueueStep} (steps : List QueueStep) (h : step ≠ .flush) :
    sinceFlush (steps ++ [step]) = sinceFlush steps ++ step.arrivals := by
  rw [sinceFlush, List.rtakeWhile_concat_pos (· ≠ .flush) steps step (decide_eq_true h),
    List.flatMap_append, List.flatMap_singleton, sinceFlush]

/-- **What a queue holds is kept up to date by each step.** -/
theorem Holds.step {steps : List QueueStep} {queue : DiagnosticQueue}
    (h : Holds (sinceFlush steps) queue) (step : QueueStep) :
    Holds (sinceFlush (steps ++ [step])) (step.apply queue) := by
  rcases step with diagnostic | diagnostics | -
  · rw [sinceFlush_concat steps QueueStep.noConfusion]
    exact h.push diagnostic
  · rw [sinceFlush_concat steps QueueStep.noConfusion]
    exact h.extend diagnostics
  · rw [sinceFlush_concat_flush, QueueStep.apply, flush_snd]
    exact holds_empty

theorem holds_run (steps : List QueueStep) : Holds (sinceFlush steps) (run steps) := by
  induction steps using List.reverseRecOn with
  | nil => exact holds_empty
  | append_singleton steps step ih =>
    rw [run, List.foldl_append]
    exact ih.step step

/-- **A queue holds what has arrived since it was flushed, and hands it out in order.** Whatever was
done to a queue, it holds the diagnostics that have arrived since the last flush, without
repetitions and in order of arrival; it knows them again, and it has counted the errors and the
warnings among them. To flush it hands out all of them, sorted by place and, at one place, in order
of arrival. It is then a new queue, which accepts what it had held before. -/
theorem queue_after_run (steps : List QueueStep) :
    let queue := run steps
    queue.toList = (sinceFlush steps).eraseDups
      ∧ (∀ diagnostic, diagnostic ∈ queue.seen ↔ diagnostic ∈ queue.toList)
      ∧ queue.errorCount = queue.toList.countP (·.severity = .error)
      ∧ queue.warningCount = queue.toList.countP (·.severity = .warning)
      ∧ queue.flush.1.Perm queue.toList
      ∧ queue.flush.1.Pairwise Diagnostic.NotAfter
      ∧ (∀ key, queue.flush.1.filter (·.sortKey = key) = queue.toList.filter (·.sortKey = key))
      ∧ queue.flush.2 = empty
      ∧ ∀ diagnostic, (run (steps ++ [.flush, .push diagnostic])).toList = [diagnostic] := by
  intro queue
  have hholds : Holds (sinceFlush steps) queue := holds_run steps
  refine ⟨hholds.toList_eq, ?_, hholds.errors, hholds.warnings, sortByLocation_perm _, ?_,
    filter_sortByLocation _, flush_snd _, ?_⟩
  · intro diagnostic
    rw [hholds.mem_seen, hholds.toList_eq, List.mem_eraseDups]
  · exact (pairwise_sortByLocation _).imp Diagnostic.isLE_compareLocation_iff.mp
  · intro diagnostic
    rw [List.append_cons, (holds_run _).toList_eq, sinceFlush_concat _ QueueStep.noConfusion,
      sinceFlush_concat_flush]
    rfl

end DiagnosticQueue

end CommentBlocks
