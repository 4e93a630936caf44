import CommentBlocks.Comment.Trace
import CommentBlocks.Extract.Config
import CommentBlocks.Extract.Error
import CommentBlocks.Language.Registry

/-!
# Extracting files

An extractor takes a file through all stages: its language is looked up, its bytes are decoded, the
text is checked, and the source is scanned. The first stage that fails decides the error. A batch is
no more than the outcomes of its files, in order.
-/

namespace CommentBlocks

/-- A file to extract comments from. -/
structure Job where
  /-- The name of the file. -/
  origin : Origin
  /-- Its content. -/
  bytes : Bytes
  /-- The identifier of its language; told from its name if absent. -/
  language : Option String := none
  /-- The label of its encoding; told from its first bytes if absent. -/
  encoding : Option String := none
deriving DecidableEq

/-- What comes of a file. -/
abbrev Outcome := Except ExtractError FileScan

/-- The languages known and how to extract. -/
structure Extractor where
  /-- The languages. -/
  registry : Registry
  /-- The settings. -/
  config : ExtractConfig

namespace Extractor

/-- The profile for a job: by the language it gives, else by the extension of its name. -/
def resolveLanguage (extractor : Extractor) (job : Job) : Except ExtractError Profile :=
  let profile :=
    match job.language with
    | some id => extractor.registry.get? id
    | none => extractor.registry.forPath? job.origin.name
  match profile with
  | some profile => .ok profile
  | none => .error (.unsupportedLanguage job.origin job.language)

/-- The UTF-8 bytes of a job, and the encoding they were in. -/
def decodeJob (job : Job) : Except ExtractError (Encoding × Bytes) :=
  (decodeFile job.bytes job.encoding).mapError (ExtractError.ofDecodeError job.origin)

/-- The source that decoded bytes of a job make. -/
def jobSource (job : Job) (bytes : Bytes) : Except ExtractError Source :=
  (Source.ofBytes bytes job.origin .zero).mapError .source

/-- Extract the comments of one file. -/
def extractFile (extractor : Extractor) (job : Job) : Outcome := do
  let profile ← extractor.resolveLanguage job
  let (_, bytes) ← decodeJob job
  let source ← jobSource job bytes
  return source.scan profile extractor.config.scan

/-- Extract the comments of several files. -/
def extractBatch (extractor : Extractor) (jobs : List Job) : List Outcome :=
  jobs.map extractor.extractFile

def fileTrace (extractor : Extractor) (job : Job) : Trace :=
  .span "extract_file" .debug [("origin", job.origin.name)] ::
    match extractor.resolveLanguage job, decodeJob job with
    | .ok profile, .ok (encoding, bytes) =>
      .event "decoded" .trace [("encoding", encoding.label), ("language", profile.id)] ::
        match jobSource job bytes with
        | .ok source => source.scanTrace profile extractor.config.scan
        | .error _ => []
    | _, _ => []

end Extractor

/-- The diagnostic about a file, if there is one: the error that kept it from being scanned, or the
warning that the scan stopped early. -/
def Outcome.diagnostic? : Outcome → Option Diagnostic
  | .error error => some error.diagnostic
  | .ok scan => scan.diagnostic?

def Outcome.blocks : Outcome → List ExtractedBlock
  | .error _ => []
  | .ok scan => scan.blocks

end CommentBlocks
