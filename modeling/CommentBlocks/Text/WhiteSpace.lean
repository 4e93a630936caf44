import CommentBlocks.Text.Basic

/-!
# White space

White space is the Unicode property `White_Space`, not the six characters of ASCII: comments and
heredoc labels are written in any script, and a no-break or an ideographic space indents a line as
a blank does.

The line feed plays two roles. It is white space, so a line that holds nothing else is blank, and
it ends lines, so indentation must not run across it. `isSpace` is the property without it.
-/

namespace CommentBlocks

/-- The Unicode property `White_Space`. -/
def isWhiteSpace (c : Char) : Bool :=
  let n := c.toNat
  (0x09 ≤ n && n ≤ 0x0D) || n == 0x20 || n == 0x85 || n == 0xA0 || n == 0x1680
    || (0x2000 ≤ n && n ≤ 0x200A) || n == 0x2028 || n == 0x2029 || n == 0x202F || n == 0x205F
    || n == 0x3000

/-- White space that stays on its line: any but the line feed. -/
def isSpace (c : Char) : Bool := isWhiteSpace c && c != '\n'

namespace Text

/-- Nothing but white space. -/
def isBlank (text : Text) : Bool := text.all isWhiteSpace

/-- The text without the white space it begins with. -/
def trimStart (text : Text) : Text := text.dropWhile isWhiteSpace

def trimEnd (text : Text) : Text := (text.reverse.dropWhile isWhiteSpace).reverse

def trim (text : Text) : Text := trimEnd (trimStart text)

end Text

end CommentBlocks
