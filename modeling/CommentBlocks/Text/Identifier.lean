import CommentBlocks.Text.Alphabetic
import CommentBlocks.Text.Basic
import CommentBlocks.Text.Numeric

/-!
# Identifiers

The words a program may choose freely, of any script: an underscore or an alphabetic character,
then underscores, alphabetic and numeric characters.
-/

namespace CommentBlocks

/-- A character that may begin an identifier. -/
def isIdentifierStart (c : Char) : Bool := c == '_' || isAlphabetic c

/-- A character that may continue an identifier. -/
def isIdentifierPart (c : Char) : Bool := c == '_' || isAlphabetic c || isNumeric c

def Text.isIdentifier : Text → Bool
  | [] => false
  | first :: others => isIdentifierStart first && others.all isIdentifierPart

end CommentBlocks
