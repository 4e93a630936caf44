import CommentBlocks.Block.Reading
import CommentBlocks.Comment.Layout
import CommentBlocks.Diagnostic.Basic
import CommentBlocks.Language.Profile

/-!
# Scanning a source for comments

A scan goes through a source once. At each place it tries the blocks of the profile in order; the
first that begins there is read to its end, and where none begins the scan moves on by one
character. A block that is still open when the source ends stops the scan, since nothing can be said
about the text inside it.

## Two stages

`survey` is the reading: it lists the comments in the order they stand, with their raw lines, and
says where the source broke off. What becomes of the comments is decided afterwards, by layout and
by length, and does not act back on the reading. Only then are they entered by line: of several
comments that begin on one line the last that was kept remains.
-/

namespace CommentBlocks

/-! ## Reading -/

/-- A comment as it stands in the source. -/
structure Comment where
  /-- Where its opener stands. -/
  start : Position
  /-- Its content, line by line. -/
  lines : List Text
deriving DecidableEq

/-- A block that is open at the end of the source. -/
structure Unterminated where
  /-- Where its opener stands. -/
  position : Position
  /-- What it holds. -/
  kind : BlockKind
deriving DecidableEq

/-- What a source holds. -/
structure Survey where
  /-- The comments, in the order they stand. -/
  comments : List Comment
  /-- The block that stopped the reading, if one did. -/
  unterminated : Option Unterminated
deriving DecidableEq

theorem Cursor.length_rest_take_one {cursor same : Cursor} (hsame : same.here = cursor.here)
    (hend : cursor.here.rest ≠ []) :
    (same.take 1).2.here.rest.length < cursor.here.rest.length := by
  have := List.length_pos_iff.mpr hend
  simp only [Cursor.take, Cursor.here_read, Place.length_rest_after, Cursor.rest, hsame,
    List.length_take]
  omega

/-- Read from the cursor to the end of the source or to the first block that does not close. -/
def survey (blocks : List Block) (cursor : Cursor) : Survey :=
  if hend : cursor.here.rest = [] then ⟨[], none⟩
  else
    match hopen : cursor.openFirst blocks with
    | (none, same) =>
      have : (same.take 1).2.here.rest.length < cursor.here.rest.length :=
        Cursor.length_rest_take_one (Cursor.here_openFirst_of_none hopen) hend
      survey blocks (same.take 1).2
    | (some block, inside) =>
      have : (inside.closeBlock block).2.here.rest.length < cursor.here.rest.length :=
        Nat.lt_of_le_of_lt (inside.length_rest_closeBlock block)
          (Cursor.length_rest_openFirst_of_some hopen)
      let stop := (inside.closeBlock block).1
      if stop.wellTerminated then
        let others := survey blocks (inside.closeBlock block).2
        if block.kind.isComment then
          { others with comments := ⟨cursor.position, stop.lines⟩ :: others.comments }
        else others
      else ⟨[], some ⟨cursor.position, block.kind⟩⟩
termination_by cursor.here.rest.length
decreasing_by all_goals assumption

/-! ## Keeping -/

/-- What a scan keeps. -/
structure ScanConfig where
  /-- The least number of bytes of content worth keeping: that of `@api` by default. -/
  minContentLength : Nat := 4
deriving DecidableEq

/-- The line of a comment as people count it. -/
def Comment.line (comment : Comment) : Nat := comment.start.displayLine

/-- The content of a comment, if it is long enough to be kept. -/
def Comment.content? (config : ScanConfig) (comment : Comment) : Option Text :=
  (layout? comment.lines).filter fun content ↦ config.minContentLength ≤ content.byteLength

/-- Enter the content that begins on a line. Entries are in descending order of lines, so that a
comment further down is entered in front; a line that has an entry already gets the new one. -/
def enterLine (line : Nat) (content : Text) : List (Nat × Text) → List (Nat × Text)
  | [] => [(line, content)]
  | (other, text) :: entries =>
    if other < line then (line, content) :: (other, text) :: entries
    else if line = other then (line, content) :: entries
    else (other, text) :: enterLine line content entries

def enterComment (config : ScanConfig) (entries : List (Nat × Text)) (comment : Comment) :
    List (Nat × Text) :=
  match comment.content? config with
  | some content => enterLine comment.line content entries
  | none => entries

/-! ## Results -/

/-- An extracted comment. -/
structure ExtractedBlock where
  /-- The document it stands in. -/
  origin : Origin
  /-- The line of its opener, counted from one. -/
  startLine : Nat
  /-- Its content, laid out. -/
  content : Text
deriving DecidableEq

/-- What was found in a file. -/
structure FileScan where
  /-- The document. -/
  origin : Origin
  /-- The comments kept, in ascending order of lines. -/
  blocks : List ExtractedBlock
  /-- The block that stopped the scan, if one did. -/
  unterminated : Option Unterminated
deriving DecidableEq

namespace FileScan

def isComplete (scan : FileScan) : Bool := scan.unterminated.isNone

/-- The warning about a scan that stopped early. -/
def diagnostic? (scan : FileScan) : Option Diagnostic :=
  scan.unterminated.map fun block ↦
    let what := if block.kind.isComment then "comment" else "string"
    Diagnostic.warning .unterminatedBlock
      |>.withMessage s!"unterminated {what} block"
      |>.atPosition scan.origin block.position
      |>.withNote "the rest of the file was not scanned"

@[simp] theorem isSome_diagnostic? (scan : FileScan) :
    scan.diagnostic?.isSome = !scan.isComplete := by
  rw [diagnostic?, Option.isSome_map, isComplete, Option.not_isNone]

end FileScan

namespace Source

/-- Scan a source with the blocks of a language. -/
def scan (source : Source) (profile : Profile) (config : ScanConfig) : FileScan :=
  let found := survey profile.blocks source.cursor
  { origin := source.origin
    blocks := (found.comments.foldl (enterComment config) []).reverse.map fun (line, content) ↦
      ⟨source.origin, line, content⟩
    unterminated := found.unterminated }

end Source

end CommentBlocks
