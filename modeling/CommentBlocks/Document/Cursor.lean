import CommentBlocks.Document.Source
import CommentBlocks.Text.WhiteSpace

/-!
# Cursors

A cursor reads a source from front to back and knows its position at every moment. Reading is
described through `Place`, a position together with the text unread there: everything a reader may
look at is in its place, and everything it may do is to move to a later one.

## One step back

Each reading operation remembers the place it started from, and `Cursor.rollback` goes back there.
One step is remembered, not a history: a second rollback does nothing. To go back further a reader
keeps a place and returns to it, which forgets the remembered step.

## Searching

`Cursor.takeUntil` looks for its delimiter in the UTF-8 bytes of the unread text and then cuts the
text at the byte offset found, and `Cursor.takeLine` does so for a line feed. That the offset is a
character boundary is a fact about UTF-8, not a check: `Text.splitAtByte?` would have no answer
otherwise.
-/

namespace CommentBlocks

/-! ## Places -/

/-- A position and the text that is unread there. -/
structure Place where
  /-- The position of the first unread character. -/
  position : Position
  /-- The unread text. -/
  rest : Text
deriving DecidableEq

/-- The place after `text`, which the unread text begins with. -/
def Place.after (place : Place) (text : Text) : Place :=
  ⟨place.position.advanceText text, place.rest.drop text.length⟩

@[simp] theorem Place.after_nil (place : Place) : place.after [] = place := by
  simp [Place.after]

theorem Place.after_append (place : Place) (s t : Text) :
    place.after (s ++ t) = (place.after s).after t := by
  simp [Place.after, Position.advanceText_append]

@[simp] theorem Place.length_rest_after (place : Place) (text : Text) :
    (place.after text).rest.length = place.rest.length - text.length := by
  simp [Place.after]

/-! ## The cursor -/

/-- A reader of one source. -/
structure Cursor where
  /-- All the text of the source, read and unread. -/
  text : Text
  /-- The byte offset of that text in its document. -/
  base : Nat
  /-- Where reading goes on. -/
  here : Place
  /-- Where the last step started, if it can still be undone. -/
  undo : Option Place
deriving DecidableEq

/-- A cursor at the start of a source. -/
def Source.cursor (source : Source) : Cursor :=
  ⟨source.text, source.start.byteOffset, ⟨source.start, source.text⟩, none⟩

namespace Cursor

def position (cursor : Cursor) : Position := cursor.here.position

def rest (cursor : Cursor) : Text := cursor.here.rest

def atEnd (cursor : Cursor) : Bool := cursor.rest.isEmpty

/-- The cursor stands in column zero. -/
def atLineStart (cursor : Cursor) : Bool := cursor.position.character == 0

def peek (cursor : Cursor) : Option Char := cursor.rest.head?

/-! ## Reading -/

/-- Read `text`, which the unread text begins with, as one step. -/
def read (cursor : Cursor) (text : Text) : Cursor :=
  { cursor with here := cursor.here.after text, undo := some cursor.here }

@[simp] theorem here_read (cursor : Cursor) (text : Text) :
    (cursor.read text).here = cursor.here.after text := rfl

/-- Read `token` if it comes next, and tell whether it did. -/
def matchToken (cursor : Cursor) (token : Text) : Bool × Cursor :=
  if Text.startsWith token cursor.rest then (true, cursor.read token) else (false, cursor)

/-- Read the white space that comes next, up to a line feed or the character `exclude`. -/
def skipSpaces (cursor : Cursor) (exclude : Option Char) : Text × Cursor :=
  let spaces := cursor.rest.takeWhile fun c ↦ isSpace c && some c != exclude
  (spaces, cursor.read spaces)

/-- Read the next `n` characters, or all that are left if there are fewer. -/
def take (cursor : Cursor) (n : Nat) : Text × Cursor :=
  let text := cursor.rest.take n
  (text, cursor.read text)

/-- The offset of the first occurrence of `needle` in `bytes`. -/
def findBytes? (needle : Bytes) : Bytes → Option Nat
  | [] => if needle.isEmpty then some 0 else none
  | b :: bytes =>
    if needle.isPrefixOf (b :: bytes) then some 0 else (findBytes? needle bytes).map (· + 1)

/-- Read up to the next occurrence of `delimiter`, and past it if `inclusive`. Without one, or when
the delimiter is empty, nothing is read. -/
def takeUntil (cursor : Cursor) (delimiter : Text) (inclusive : Bool) : Option Text × Cursor :=
  if delimiter.isEmpty then (none, cursor)
  else
    match findBytes? (Utf8.encode delimiter) (Utf8.encode cursor.rest) with
    | none => (none, cursor)
    | some offset =>
      let length := if inclusive then offset + (Utf8.encode delimiter).length else offset
      match Text.splitAtByte? length cursor.rest with
      | none => (none, cursor)
      | some (text, _) => (some text, cursor.read text)

/-- Read the rest of the line with its line feed, or everything if there is no line feed. -/
def takeLine (cursor : Cursor) : Text × Cursor :=
  let bytes := Utf8.encode cursor.rest
  let length := ((findBytes? [0x0A] bytes).map (· + 1)).getD bytes.length
  match Text.splitAtByte? length cursor.rest with
  | none => ([], cursor)
  | some (line, _) => (line, cursor.read line)

def takeRest (cursor : Cursor) : Text × Cursor := (cursor.rest, cursor.read cursor.rest)

/-! ## Going back -/

/-- Undo the last step, if there is one to undo. -/
def rollback (cursor : Cursor) : Cursor :=
  { cursor with here := cursor.undo.getD cursor.here, undo := none }

/-- Go to a place that this cursor has been at. No step can be undone afterwards. -/
def returnTo (cursor : Cursor) (place : Place) : Cursor :=
  { cursor with here := place, undo := none }

/-- Go to a position of this source. The position is taken as given, and its byte offset says what
is unread there. -/
def moveTo (cursor : Cursor) (position : Position) : Cursor :=
  let rest :=
    match Text.splitAtByte? (position.byteOffset - cursor.base) cursor.text with
    | some (_, rest) => rest
    | none => []
  cursor.returnTo ⟨position, rest⟩

/-! ## Slices -/

/-- The text between two positions of the source, told by their byte offsets. There is none if the
offsets are out of order, outside the source, or inside a character. -/
def slice? (cursor : Cursor) (first last : Position) : Option Text :=
  if cursor.base ≤ first.byteOffset ∧ first.byteOffset ≤ last.byteOffset then
    (Text.splitAtByte? (first.byteOffset - cursor.base) cursor.text).bind fun (_, rest) ↦
      (Text.splitAtByte? (last.byteOffset - first.byteOffset) rest).map (·.1)
  else none

/-- The text between a position of the source and the current one. -/
def sliceFrom? (cursor : Cursor) (first : Position) : Option Text :=
  cursor.slice? first cursor.position

end Cursor

end CommentBlocks
