import CommentBlocks.Block.Basic
import CommentBlocks.Block.Ending
import CommentBlocks.Block.Margin
import CommentBlocks.Block.Opening
import CommentBlocks.Block.Reading
import CommentBlocks.Comment.Layout
import CommentBlocks.Comment.Scan
import CommentBlocks.Comment.Trace
import CommentBlocks.Diagnostic.Basic
import CommentBlocks.Diagnostic.Queue
import CommentBlocks.Diagnostic.Trace
import CommentBlocks.Document.Cursor
import CommentBlocks.Document.Origin
import CommentBlocks.Document.Position
import CommentBlocks.Document.Source
import CommentBlocks.Encoding
import CommentBlocks.Extract.Config
import CommentBlocks.Extract.Error
import CommentBlocks.Extract.File
import CommentBlocks.Json.Token
import CommentBlocks.Json.Value
import CommentBlocks.Language.Builtin
import CommentBlocks.Language.Profile
import CommentBlocks.Language.Registry
import CommentBlocks.Proofs.BlockText
import CommentBlocks.Proofs.CursorRuns
import CommentBlocks.Proofs.Places
import CommentBlocks.Proofs.Utf8
import CommentBlocks.Stream.Run
import CommentBlocks.Stream.State
import CommentBlocks.Stream.Step
import CommentBlocks.Text.Alphabetic
import CommentBlocks.Text.Basic
import CommentBlocks.Text.Identifier
import CommentBlocks.Text.Numeric
import CommentBlocks.Text.Utf16
import CommentBlocks.Text.Utf8
import CommentBlocks.Text.WhiteSpace
import CommentBlocks.Trace
import CommentBlocks.Proofs.Interleaving
import CommentBlocks.Proofs.StreamSteps
import CommentBlocks.Proofs.StreamLedger
import CommentBlocks.Proofs.StreamDelivery
import CommentBlocks.Proofs.SeekPoints
import CommentBlocks.Proofs.LineEntries
import CommentBlocks.Proofs.ResumedScan
import CommentBlocks.Proofs.TruncatedBlocks
import CommentBlocks.Proofs.TruncatedScan
import CommentBlocks.Proofs.ContentText
import CommentBlocks.Proofs.ScanShape
import CommentBlocks.Proofs.EncodedFiles
import CommentBlocks.Proofs.LineBreakLines
import CommentBlocks.Proofs.LineBreakScan
import CommentBlocks.Proofs.BlockContract
import CommentBlocks.Proofs.CollectedDiagnostics
import CommentBlocks.Proofs.StoppedStream
import CommentBlocks.Proofs.StreamProgress
import CommentBlocks.Proofs.ReportedDiagnostics
import CommentBlocks.Proofs.LineCommentRuns
import CommentBlocks.Proofs.FirstPlaces
import CommentBlocks.Proofs.QuotedStrings
import CommentBlocks.Proofs.NestedComments
import CommentBlocks.Proofs.Heredocs
import CommentBlocks.Proofs.AnchoredBlocks
import CommentBlocks.Proofs.CommentSearch
import CommentBlocks.Proofs.Fences
import CommentBlocks.Proofs.MaximalRuns
import CommentBlocks.Proofs.Indentation
import CommentBlocks.Proofs.RepeatedLayout
import CommentBlocks.Proofs.LongestFronts
import CommentBlocks.Proofs.CheckedSources
import CommentBlocks.Proofs.DecodingFaults
import CommentBlocks.Proofs.RefusedFiles
import CommentBlocks.Proofs.BoundedCounters
import CommentBlocks.Proofs.BoundedBlocks
import CommentBlocks.Proofs.BoundedScan
import CommentBlocks.Proofs.RelocatedScan
import CommentBlocks.Proofs.LengthThreshold
import CommentBlocks.Proofs.BlockOrder
import CommentBlocks.Proofs.ByteOrder
import CommentBlocks.Proofs.QueueRuns
import CommentBlocks.Proofs.LanguageLookup
