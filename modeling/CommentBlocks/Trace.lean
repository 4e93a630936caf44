/-!
# Traces

A trace tells what happened while a file was read: *spans* when a piece of work begins, *events*
when something worth noting occurs. Names and values are text; consumers filter them by level.

Traces are not written while the work is done. Each stage gives its result, and the trace of a stage
is a function of that result, so a result can be reasoned about without its trace.
-/

namespace CommentBlocks

namespace Trace

/-- How important a record is. -/
inductive Level where
  | error
  | warn
  | info
  | debug
  | trace
deriving DecidableEq

def Level.name : Level → String
  | error => "ERROR"
  | warn => "WARN"
  | info => "INFO"
  | debug => "DEBUG"
  | trace => "TRACE"

/-- One entry of a trace; the fields are names and values. -/
inductive Record where
  /-- A piece of work begins. -/
  | span (name : String) (level : Level) (fields : List (String × String))
  /-- Something occurred. -/
  | event (message : String) (level : Level) (fields : List (String × String))
deriving DecidableEq

end Trace

/-- What happened, in order. -/
abbrev Trace := List Trace.Record

end CommentBlocks
