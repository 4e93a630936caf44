import CommentBlocks.Block.Basic

/-!
# Language profiles

A profile says how one language is recognised, by an identifier or a file extension, and which
blocks to look for in it. The order of the blocks matters: at each place the first that begins there
wins, so a longer opener stands before a shorter one that it starts with.
-/

namespace CommentBlocks

/-- What is known about a language. -/
structure Profile where
  /-- The identifier, in lower case. -/
  id : String
  /-- The name shown to people. -/
  displayName : String
  /-- The file extensions with their dots, in lower case. -/
  extensions : List String
  /-- The blocks, in the order they are tried. -/
  blocks : List Block
deriving DecidableEq

namespace Block

/-! ## Short forms for profile tables -/

/-- A string in which a token escapes the next character. -/
def escaped (opener closer escape : String) : Block :=
  .delimited (.string opener.toList closer.toList (some escape.toList))

/-- A string without escapes. -/
def verbatim (opener closer : String) : Block :=
  .delimited (.string opener.toList closer.toList none)

/-- Comments to the end of the line. -/
def line (opener : String) : Block := .delimited (.line opener.toList)

/-- A comment without a margin. -/
def comment (opener closer : String) : Block :=
  .delimited (.comment opener.toList closer.toList none)

/-- A comment that may have a margin. -/
def commentWithMargin (opener closer margin : String) : Block :=
  .delimited (.comment opener.toList closer.toList (some margin.toList))

/-- A nesting comment that may have a margin. -/
def nestedWithMargin (opener closer margin : String) : Block :=
  .delimited (.nested opener.toList closer.toList (some margin.toList))

/-- A string in which the quote is written twice. -/
def doubled (quote : String) : Block := .delimited (.doubled quote.toList)

/-- A comment delimited by whole lines. -/
def anchored (opener closer : String) : Block :=
  .delimited (.anchored opener.toList closer.toList)

/-- A string closed by a mark at the end of its line. -/
def fence (mark : String) : Block := .delimited (.fence mark.toList)

/-- A string with several openers in which the quote is written twice. -/
def raw (openers : List String) (quote : String) : Block :=
  .delimited (.raw (openers.map String.toList) quote.toList)

end Block

end CommentBlocks
