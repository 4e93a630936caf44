import CommentBlocks.Text.WhiteSpace

/-!
# The layout of a comment

The lines of a comment carry the indentation of the code around it. `layout?` joins them to one
text and takes that indentation away, so that what remains is indented as the author meant it
relative to the first line.

* Blank lines before the first and after the last line with content are dropped; without any
  content there is no layout.
* The first line loses all the white space it begins with.
* The later lines with content lose the indentation they have in common. Blank lines among them are
  kept as they are, and have no say in what is common.

Indentation is measured in bytes, but only whole characters are removed: a line whose white space
cannot be cut at the common width keeps a little more of it.
-/

namespace CommentBlocks

namespace Text

/-- The bytes of white space that `line` begins with. -/
def indentWidth (line : Text) : Nat := byteLength (line.takeWhile isWhiteSpace)

/-- Remove white space from the front of a line as long as whole characters fit in `width` bytes. -/
def dropIndent : Nat → Text → Text
  | _, [] => []
  | width, c :: rest =>
    if isWhiteSpace c && c.utf8Size ≤ width then dropIndent (width - c.utf8Size) rest else c :: rest

end Text

/-- The lines without the blank ones at both ends. -/
def trimBlankLines (lines : List Text) : List Text :=
  ((lines.dropWhile Text.isBlank).reverse.dropWhile Text.isBlank).reverse

/-- The least indentation of the lines with content; zero if there are none. -/
def commonIndent (lines : List Text) : Nat :=
  ((lines.filter fun line ↦ !line.isBlank).map Text.indentWidth).min?.getD 0

/-- A later line of a comment, less `indent` bytes of white space. -/
def outdent (indent : Nat) (line : Text) : Text :=
  if line.isBlank then line else line.dropIndent indent

/-- The content of a comment, given its lines; none if all of them are blank. -/
def layout? (lines : List Text) : Option Text :=
  match trimBlankLines lines with
  | [] => none
  | first :: others =>
    some (Text.trimStart first ++ (others.map (outdent (commonIndent others))).flatten)

end CommentBlocks
