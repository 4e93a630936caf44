import CommentBlocks.Diagnostic.Basic
import Std.Data.HashSet

/-!
# The diagnostic queue

Diagnostics arrive in whatever order files are finished. The queue keeps them as they arrive, drops
those it already holds, counts errors and warnings, and when it is flushed hands everything back
sorted by place. A flushed queue is a new one: what it held before may be queued again.

The queue is also what a *collecting* sink is: to emit a diagnostic is to push it, to take what was
collected is to flush. A *tracing* sink writes each diagnostic as one trace event; a *discarding*
sink does nothing and has no definition here.
-/

namespace CommentBlocks

/-- Diagnostics collected since the last flush. -/
structure DiagnosticQueue where
  /-- The diagnostics, in order of arrival. -/
  pending : Array Diagnostic := #[]
  /-- The same diagnostics, to look up duplicates. -/
  seen : Std.HashSet Diagnostic := ∅
  /-- How many of them are errors. -/
  errorCount : Nat := 0
  /-- How many of them are warnings. -/
  warningCount : Nat := 0

namespace DiagnosticQueue

def empty : DiagnosticQueue := {}

/-- The queued diagnostics in order of arrival. -/
def toList (queue : DiagnosticQueue) : List Diagnostic := queue.pending.toList

def size (queue : DiagnosticQueue) : Nat := queue.pending.size

def isEmpty (queue : DiagnosticQueue) : Bool := queue.pending.isEmpty

def hasErrors (queue : DiagnosticQueue) : Bool := 0 < queue.errorCount

/-- Queue a diagnostic, unless an equal one is queued already. -/
def push (queue : DiagnosticQueue) (diagnostic : Diagnostic) : DiagnosticQueue :=
  if queue.seen.contains diagnostic then queue
  else
    { pending := queue.pending.push diagnostic
      seen := queue.seen.insert diagnostic
      errorCount := if diagnostic.isError then queue.errorCount + 1 else queue.errorCount
      warningCount := if diagnostic.isWarning then queue.warningCount + 1 else queue.warningCount }

def extend (queue : DiagnosticQueue) (diagnostics : List Diagnostic) : DiagnosticQueue :=
  diagnostics.foldl push queue

/-- Sort diagnostics by place; those at the same place keep their order. -/
def sortByLocation (diagnostics : List Diagnostic) : List Diagnostic :=
  diagnostics.mergeSort fun a b ↦ (a.compareLocation b).isLE

/-- Take everything out, sorted by place, and forget what was seen and counted. -/
def flush (queue : DiagnosticQueue) : List Diagnostic × DiagnosticQueue :=
  (sortByLocation queue.toList,
    { queue with pending := #[], seen := ∅, errorCount := 0, warningCount := 0 })

@[simp] theorem flush_snd (queue : DiagnosticQueue) : queue.flush.2 = empty := rfl

end DiagnosticQueue

end CommentBlocks
