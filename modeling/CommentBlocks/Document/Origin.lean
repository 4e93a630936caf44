import CommentBlocks.Text.Basic

/-!
# Origins

An origin names the document a text came from: a path or any other identifier. It is carried by
everything that is extracted from the document or reported about it, and nothing is read through
it. Its one structure is that of a path, from which a file extension can be told.

## The extension of a path

A path is cut at its slashes. Empty segments and single dots name no file and are passed over; the
last segment left is the file name, unless it is a double dot. The extension is what follows the
last dot of the file name, provided something stands before that dot.
-/

namespace CommentBlocks

/-- The name of a document. -/
structure Origin where
  /-- The path or identifier itself. -/
  name : String
deriving DecidableEq, Hashable

namespace Origin

/-- Origins are ordered as their names are, by code points. -/
instance : Ord Origin where
  compare a b := compare a.name b.name

/-- The last segment of a path that names a file. -/
def fileName? (path : Text) : Option Text :=
  match ((Text.splitOn '/' path).filter fun s ↦ s ≠ [] ∧ s ≠ ['.']).getLast? with
  | none => none
  | some segment => if segment = ['.', '.'] then none else some segment

/-- What follows the last dot of a file name, if that dot does not begin it. -/
def afterLastDot? (file : Text) : Option Text :=
  if '.' ∈ file.drop 1 then some (file.reverse.takeWhile (· ≠ '.')).reverse else none

/-- The file extension of a path, without its dot and as it is written. -/
def pathExtension? (path : String) : Option String :=
  ((fileName? path.toList).bind afterLastDot?).map String.ofList

/-- The file extension with its dot, in ASCII lower case. -/
def extension? (origin : Origin) : Option String :=
  (pathExtension? origin.name).map fun extension ↦ "." ++ extension.toLower

end Origin

end CommentBlocks
