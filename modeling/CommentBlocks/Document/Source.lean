import CommentBlocks.Document.Origin
import CommentBlocks.Document.Position
import CommentBlocks.Text.Utf8

/-!
# Sources

A source is text that has been checked once and for all: well-formed, and small enough for the
offsets of a document. It may hold a part of a larger document; `start` is the place of that part,
so positions reported for it are positions of the document.

## Two checks, in this order

A source whose end lies past `Source.maxOffset` is refused before its bytes are looked at.
Otherwise the bytes are decoded, and the first malformed sequence is reported at its position.
`Source.locate` finds that position from the bytes alone, by counting line feeds and the bytes
that begin a character.
-/

namespace CommentBlocks

/-- Why bytes do not make a source. -/
inductive SourceError where
  /-- The bytes are not UTF-8. The malformed sequence starts at `position` and has `length` bytes,
  zero if the input ends in the middle of a character. -/
  | invalidUtf8 (origin : Origin) (position : Position) (length : Nat)
  /-- The end of the text does not fit the offsets of a document. -/
  | tooLarge (origin : Origin) (length : Nat)
deriving DecidableEq

namespace SourceError

/-- The document that was refused. -/
def origin : SourceError → Origin
  | invalidUtf8 origin _ _ => origin
  | tooLarge origin _ => origin

/-- The place the error is about. -/
def position : SourceError → Position
  | invalidUtf8 _ position _ => position
  | tooLarge _ _ => .zero

/-- The number of bytes the error is about: those of the malformed sequence, or of all the text. -/
def length : SourceError → Nat
  | invalidUtf8 _ _ length => length
  | tooLarge _ length => length

def message : SourceError → String
  | invalidUtf8 origin position _ => s!"{origin.name}:{position.display}: invalid UTF-8 sequence"
  | tooLarge origin length =>
    s!"{origin.name}: source is {length} bytes, larger than the supported 4 GiB"

end SourceError

/-- Checked text, its document, and its place in that document. -/
structure Source where
  /-- The text itself. -/
  text : Text
  /-- The document it belongs to. -/
  origin : Origin
  /-- The position of its first character. -/
  start : Position
deriving DecidableEq

namespace Source

/-- The greatest byte offset of a document. -/
def maxOffset : Nat := 4294967295

/-- The position after well-formed `bytes` that stand at `start`. -/
def locate (bytes : Bytes) (start : Position) : Position :=
  let isLineFeed (b : UInt8) : Bool := b == 0x0A
  let characters (tail : Bytes) : Nat := tail.countP fun b ↦ !Utf8.isContinuation b
  if bytes.any isLineFeed then
    ⟨start.line + bytes.countP isLineFeed,
      characters (bytes.reverse.takeWhile fun b ↦ !isLineFeed b), start.byteOffset + bytes.length⟩
  else
    ⟨start.line, start.character + characters bytes, start.byteOffset + bytes.length⟩

/-- Check `bytes` as the part of a document that begins at `start`. -/
def ofBytes (bytes : Bytes) (origin : Origin) (start : Position) : Except SourceError Source :=
  if maxOffset < start.byteOffset + bytes.length then .error (.tooLarge origin bytes.length)
  else
    let decoded := Utf8.decode bytes
    if decoded.rest.isEmpty then .ok ⟨decoded.text, origin, start⟩
    else
      let valid := bytes.take (bytes.length - decoded.rest.length)
      .error (.invalidUtf8 origin (locate valid start) (Utf8.faultLength decoded.rest))

/-- Take text as a whole document. -/
def ofText (text : Text) (origin : Origin) : Except SourceError Source :=
  if maxOffset < text.byteLength then .error (.tooLarge origin text.byteLength)
  else .ok ⟨text, origin, .zero⟩

def bytes (source : Source) : Bytes := Utf8.encode source.text

end Source

end CommentBlocks
