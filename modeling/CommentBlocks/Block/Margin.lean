import CommentBlocks.Text.WhiteSpace

/-!
# Margins

Authors draw a margin down the left of a comment, a star or the comment sign once more, and leave a
space after it. The margin is not content. `Text.dropMark` takes it off a line: the indentation, one
mark and one white space go; a mark that ends its line leaves just the line feed; and a line that
does not begin in this way is kept as it stands, indentation and all.
-/

namespace CommentBlocks

/-- The line without a margin drawn with a character of `marks`. -/
def Text.dropMark (marks line : Text) : Text :=
  match line.dropWhile isSpace with
  | mark :: next :: rest =>
    if mark ∈ marks then
      if next = '\n' then ['\n'] else if isWhiteSpace next then rest else line
    else line
  | _ => line

/-- The line without its margin, if the comment may have one. -/
def Text.dropMargin (margin : Option Text) (line : Text) : Text :=
  match margin with
  | some marks => Text.dropMark marks line
  | none => line

end CommentBlocks
