import CommentBlocks.Text.Basic

/-!
# Positions in a document

A position counts three things at once: lines, characters since the last line feed, and bytes since
the start of the document. Lines and characters are counted from zero and shown from one.

Reading a character moves a position by `Position.advance`, and that is the only way positions come
about: the three counts are functions of the text read so far.
-/

namespace CommentBlocks

/-- A place in a document. -/
structure Position where
  /-- Line feeds before this place. -/
  line : Nat
  /-- Characters between the last line feed and this place. -/
  character : Nat
  /-- UTF-8 bytes before this place. -/
  byteOffset : Nat
deriving DecidableEq, Hashable

namespace Position

def zero : Position := ⟨0, 0, 0⟩

/-- The position after the character `c` at `p`. -/
def advance (p : Position) (c : Char) : Position :=
  if c = '\n' then ⟨p.line + 1, 0, p.byteOffset + c.utf8Size⟩
  else ⟨p.line, p.character + 1, p.byteOffset + c.utf8Size⟩

/-- The position after all of `text`, which stands at `p`. -/
def advanceText (p : Position) (text : Text) : Position := text.foldl advance p

@[simp] theorem advanceText_nil (p : Position) : p.advanceText [] = p := rfl

@[simp] theorem advanceText_cons (p : Position) (c : Char) (text : Text) :
    p.advanceText (c :: text) = (p.advance c).advanceText text := rfl

theorem advanceText_append (p : Position) (s t : Text) :
    p.advanceText (s ++ t) = (p.advanceText s).advanceText t := List.foldl_append

/-- Positions are ordered by line, then character, then byte offset. -/
instance : Ord Position where
  compare p q :=
    (compare p.line q.line).then <|
      (compare p.character q.character).then (compare p.byteOffset q.byteOffset)

/-- The line as people count it, from one. -/
def displayLine (p : Position) : Nat := p.line + 1

/-- Line and character as people count them, from one. -/
def display (p : Position) : String := s!"{p.line + 1}:{p.character + 1}"

end Position

end CommentBlocks
