import CommentBlocks.Block.Basic
import CommentBlocks.Document.Cursor
import CommentBlocks.Text.Identifier

/-!
# Where blocks begin

Whether a block begins at a place depends on the place alone: the unread text and, for blocks
anchored to lines, the column. `Block.openingAt` tells, and gives the text of the opener in two
parts, since an opener of several tokens is read in several steps and only the last of them can be
rolled back.

A refusal has two forms. Most blocks refuse at their first token, before anything is read. Heredocs
and anchored blocks may read on before they refuse, and then return to where they were; the place
is the same, but the step before it can no longer be undone.
-/

namespace CommentBlocks

/-- What comes of trying a block at a place. -/
inductive Opening where
  /-- The block does not begin here. If `returned`, text was read and given back. -/
  | refused (returned : Bool)
  /-- The block begins here. Its opener is `body`, then `last`, which is read in one step. -/
  | opened (block : OpenBlock) (body last : Text)
deriving DecidableEq

/-! ## Heredoc labels -/

/-- What stands between two quotes. -/
def unquote? (quote : Char) : Text → Option Text
  | [] => none
  | first :: inner =>
    if first = quote ∧ inner.getLast? = some quote then some inner.dropLast else none

/-- A label as it is written: an identifier, bare or in quotes. -/
def HeredocLabel.ofText? (label : Text) : Option HeredocLabel :=
  let read : HeredocLabel :=
    match unquote? '\'' label with
    | some inner => ⟨inner, .nowdoc⟩
    | none =>
      match unquote? '"' label with
      | some inner => ⟨inner, .heredoc⟩
      | none => ⟨label, .heredoc⟩
  if read.terminator.isIdentifier then some read else none

/-- The label on the rest of an opening line, which must end with a line feed. -/
def HeredocLabel.ofLine? (line : Text) : Option HeredocLabel :=
  if line.getLast? = some '\n' then ofText? (Text.trimEnd line.dropLast) else none

/-! ## Openings by kind -/

/-- Try a heredoc: its opener, white space, and a label that ends its line. -/
def heredocOpening (text : Text) : Opening :=
  match Text.afterToken? heredocOpener text with
  | none => .refused false
  | some rest =>
    let line := (Text.splitLine (rest.dropWhile isSpace)).1
    match HeredocLabel.ofLine? line with
    | some label => .opened (.heredoc label) (heredocOpener ++ rest.takeWhile isSpace) line
    | none => .refused true

/-- Try a block anchored to lines: in column zero, its opener and a line break. -/
def anchoredOpening (opener closer : Text) (place : Place) : Opening :=
  if place.position.character ≠ 0 then .refused false
  else
    match (Text.afterToken? opener place.rest).bind Text.lineBreak? with
    | some lineBreak => .opened (.delimited (.anchored opener closer)) opener lineBreak
    | none => .refused true

/-- Try the openers of a delimited block in turn. -/
def plainOpening (form : Delimited) (text : Text) : Opening :=
  match form.openers.find? (Text.startsWith · text) with
  | some opener => .opened (.delimited form) [] opener
  | none => .refused false

def Block.openingAt (place : Place) : Block → Opening
  | .heredoc => heredocOpening place.rest
  | .delimited (.anchored opener closer) => anchoredOpening opener closer place
  | .delimited form => plainOpening form place.rest

end CommentBlocks
