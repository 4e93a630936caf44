import CommentBlocks.Text.Basic

/-!
# Lexical blocks

A block is one way in which a language delimits a region of text: a comment to be extracted, or a
string to be passed over so that its content is not taken for a comment. Blocks are plain data, the
entries of a language profile, and their tokens are arbitrary texts.

## Two groups

The delimiters of most blocks are given by the profile; they are collected in `Delimited`. A
heredoc is different: the word that closes it stands in the source, behind its opener. So a block
that has been opened is an `OpenBlock`, which is the block itself or, for a heredoc, the label that
was read. A heredoc without its label cannot be written down.
-/

namespace CommentBlocks

/-- What a block holds. -/
inductive BlockKind where
  /-- A string, or anything else that is only passed over. -/
  | string
  /-- A run of comments that end with their lines. -/
  | lineComment
  /-- A comment with an end token. -/
  | blockComment
deriving DecidableEq

/-- Comments are extracted, strings are not. -/
def BlockKind.isComment : BlockKind → Bool
  | .string => false
  | .lineComment => true
  | .blockComment => true

/-- The blocks whose delimiters are known beforehand. -/
inductive Delimited where
  /-- A string from `opener` to `closer`. After `escape` one character is passed over, so an escaped
  `closer` does not end the string. -/
  | string (opener closer : Text) (escape : Option Text)
  /-- Comments that run to the end of the line. Further lines that begin with `opener`, after
  indentation, belong to the same block. -/
  | line (opener : Text)
  /-- A comment from `opener` to `closer`. A line loses a leading character of `margin` that is
  followed by white space. -/
  | comment (opener closer : Text) (margin : Option Text)
  /-- A string in which the quote, written twice, stands for itself. -/
  | doubled (quote : Text)
  /-- A comment whose delimiters fill whole lines and begin in column zero. -/
  | anchored (opener closer : Text)
  /-- A comment whose delimiters nest; `margin` is as for `comment`. -/
  | nested (opener closer : Text) (margin : Option Text)
  /-- A string that closes only with a `mark` at the end of its line. -/
  | fence (mark : Text)
  /-- A string with several openers in which the quote, written twice, stands for itself. -/
  | raw (openers : List Text) (quote : Text)
deriving DecidableEq

/-- One lexical construct of a language. -/
inductive Block where
  /-- A block with delimiters of its own. -/
  | delimited (form : Delimited)
  /-- A string closed by the word that its opening line names. -/
  | heredoc
deriving DecidableEq

/-- How the body of a heredoc is to be understood. -/
inductive HeredocFlavor where
  /-- With escapes and interpolation. -/
  | heredoc
  /-- As it stands. -/
  | nowdoc
deriving DecidableEq

/-- What the opening line of a heredoc says. -/
structure HeredocLabel where
  /-- The word that closes the heredoc. -/
  terminator : Text
  /-- How its body is read. -/
  flavor : HeredocFlavor
deriving DecidableEq

/-- A block whose opener has been read. -/
inductive OpenBlock where
  /-- A block with delimiters of its own. -/
  | delimited (form : Delimited)
  /-- A heredoc and its label. -/
  | heredoc (label : HeredocLabel)
deriving DecidableEq

def Delimited.kind : Delimited → BlockKind
  | .line _ => .lineComment
  | .comment .. | .anchored .. | .nested .. => .blockComment
  | .string .. | .doubled _ | .fence _ | .raw .. => .string

/-- The tokens that may open a delimited block, in the order they are tried. -/
def Delimited.openers : Delimited → List Text
  | .string opener _ _ | .line opener | .comment opener _ _ => [opener]
  | .doubled quote => [quote]
  | .anchored opener _ | .nested opener _ _ => [opener]
  | .fence mark => [mark]
  | .raw openers _ => openers

/-- The token that opens every heredoc. -/
def heredocOpener : Text := "<<<".toList

def Block.kind : Block → BlockKind
  | .delimited form => form.kind
  | .heredoc => .string

/-- The tokens that may open a block. -/
def Block.openers : Block → List Text
  | .delimited form => form.openers
  | .heredoc => [heredocOpener]

def OpenBlock.block : OpenBlock → Block
  | .delimited form => .delimited form
  | .heredoc _ => .heredoc

def OpenBlock.kind (block : OpenBlock) : BlockKind := block.block.kind

/-- The label of an opened heredoc. -/
def OpenBlock.label? : OpenBlock → Option HeredocLabel
  | .delimited _ => none
  | .heredoc label => some label

end CommentBlocks
