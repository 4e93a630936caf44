import CommentBlocks.Diagnostic.Basic
import CommentBlocks.Document.Source
import CommentBlocks.Encoding

/-!
# Why a file is not extracted

Four things can go wrong with a file, one after the other: its language is not known, its encoding
is not known, its bytes are not of that encoding, or the text they make is refused as a source. Each
error names the document, and each becomes one diagnostic.
-/

namespace CommentBlocks

/-- Why a file was skipped. -/
inductive ExtractError where
  /-- The text is no source. -/
  | source (error : SourceError)
  /-- There is no profile for the language given, or for the file extension if none is given. -/
  | unsupportedLanguage (origin : Origin) (language : Option String)
  /-- The encoding label is not known. -/
  | unknownEncoding (origin : Origin) (label : String)
  /-- The bytes are not of the encoding; the first malformed sequence starts at `offset`. -/
  | malformed (origin : Origin) (encoding : Encoding) (offset : Nat)
deriving DecidableEq

/-- What was asked for when no profile was found. -/
def describeLanguage : Option String → String
  | some id => s!"language `{id}`"
  | none => "the file extension"

namespace ExtractError

/-- An error in decoding, as an error about a file. -/
def ofDecodeError (origin : Origin) : DecodeError → ExtractError
  | .unknownLabel label => unknownEncoding origin label
  | .malformed encoding offset => malformed origin encoding offset

/-- The document that was skipped. -/
def origin : ExtractError → Origin
  | source error => error.origin
  | unsupportedLanguage origin _ => origin
  | unknownEncoding origin _ => origin
  | malformed origin _ _ => origin

def code : ExtractError → ErrorCode
  | source _ => .invalidSource
  | unsupportedLanguage _ _ => .unsupportedLanguage
  | unknownEncoding _ _ => .unknownEncoding
  | malformed _ _ _ => .invalidSource

def message : ExtractError → String
  | source error => error.message
  | unsupportedLanguage origin language =>
    s!"{origin.name}: no language profile for {describeLanguage language}"
  | unknownEncoding origin label => s!"{origin.name}: unknown text encoding `{label}`"
  | malformed origin encoding offset =>
    s!"{origin.name}: input is not valid {encoding.label} at byte {offset}"

/-- What the diagnostic of an error adds to its code. -/
def describe (error : ExtractError) (diagnostic : Diagnostic) : Diagnostic :=
  match error with
  | source (.invalidUtf8 origin position _) =>
    diagnostic |>.withMessage "invalid UTF-8 sequence" |>.atPosition origin position
  | source (.tooLarge origin length) =>
    diagnostic |>.withMessage s!"source is too large ({length} bytes)" |>.inFile origin
  | unsupportedLanguage origin language =>
    diagnostic |>.withMessage s!"no language profile for {describeLanguage language}"
      |>.inFile origin
  | unknownEncoding origin label =>
    diagnostic |>.withMessage s!"unknown text encoding `{label}`" |>.inFile origin
  | malformed origin encoding offset =>
    diagnostic |>.withMessage s!"input is not valid {encoding.label}" |>.inFile origin
      |>.withNote s!"at byte offset {offset}"

def diagnostic (error : ExtractError) : Diagnostic :=
  (error.describe (.error error.code)).withNote "the file was skipped"

end ExtractError

end CommentBlocks
