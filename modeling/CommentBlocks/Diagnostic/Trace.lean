import CommentBlocks.Diagnostic.Basic
import CommentBlocks.Trace

/-!
# Diagnostics as trace events

A diagnostic may be written to a trace instead of being collected. Its severity becomes the level of
one event, its message the message; notes are not written.
-/

namespace CommentBlocks

def Severity.traceLevel : Severity → Trace.Level
  | error => .error
  | warning => .warn
  | note => .info

/-- The event that reports a diagnostic; a diagnostic without a place has an empty location. -/
def Diagnostic.traceEvent (diagnostic : Diagnostic) : Trace.Record :=
  .event diagnostic.message diagnostic.severity.traceLevel
    [("code", diagnostic.code.name),
      ("location", (diagnostic.location.map (·.display)).getD "")]

end CommentBlocks
