import CommentBlocks.Comment.Scan
import CommentBlocks.Trace

/-!
# The trace of a scan

A scan is traced as a span with the document and the language, one event for each comment that was
not kept, one for a block that does not close, and a last one with the number of comments kept.
-/

namespace CommentBlocks

def BlockKind.traceName : BlockKind → String
  | string => "String"
  | lineComment => "SingleLineComment"
  | blockComment => "MultiLineComment"

/-- The event for a block that does not close. -/
def Unterminated.traceEvent (block : Unterminated) : Trace.Record :=
  .event "unterminated block" .debug
    [("start", block.position.display), ("kind", block.kind.traceName)]

/-- The event for a comment that is not kept. -/
def Comment.traceDropped (comment : Comment) : Trace.Record :=
  .event "block below length threshold" .trace [("line", toString comment.line)]

def Source.scanTrace (source : Source) (profile : Profile) (config : ScanConfig) : Trace :=
  let found := survey profile.blocks source.cursor
  let dropped := found.comments.filter fun comment ↦ (comment.content? config).isNone
  let kept := (source.scan profile config).blocks.length
  [.span "scan" .debug [("origin", source.origin.name), ("language", profile.id)]]
    ++ dropped.map Comment.traceDropped
    ++ found.unterminated.toList.map Unterminated.traceEvent
    ++ [.event "scan complete" .debug [("blocks", toString kept)]]

end CommentBlocks
