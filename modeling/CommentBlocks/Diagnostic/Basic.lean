import CommentBlocks.Document.Origin
import CommentBlocks.Document.Position

/-!
# Diagnostics

A diagnostic is a problem as it is shown to people: a code to search for, a severity, a sentence, a
place in a document if there is one, and notes. It is built up from its code, whose description is
the message until another is given.

Diagnostics are ordered by place alone. Those without a place come first, then documents by name,
then lines, then characters; two diagnostics at the same place are equal in this order whatever else
they say, and a stable sort keeps them as they arrived.
-/

namespace CommentBlocks

/-- The kinds of problem. -/
inductive ErrorCode where
  /-- The source is not text. -/
  | invalidSource
  /-- A block runs to the end of the file. -/
  | unterminatedBlock
  /-- No profile for the language or the file extension. -/
  | unsupportedLanguage
  /-- An encoding label that is not known. -/
  | unknownEncoding
deriving DecidableEq, Hashable

namespace ErrorCode

/-- The code to search for. -/
def name : ErrorCode → String
  | invalidSource => "E0001"
  | unterminatedBlock => "E0002"
  | unsupportedLanguage => "E0003"
  | unknownEncoding => "E0004"

def description : ErrorCode → String
  | invalidSource => "invalid source text"
  | unterminatedBlock => "unterminated block"
  | unsupportedLanguage => "unsupported language"
  | unknownEncoding => "unknown text encoding"

end ErrorCode

/-- How bad a problem is. -/
inductive Severity where
  | error
  | warning
  | note
deriving DecidableEq, Hashable

def Severity.name : Severity → String
  | error => "error"
  | warning => "warning"
  | note => "note"

/-- A position in a document. -/
structure Location where
  /-- The document. -/
  origin : Origin
  /-- The position in it. -/
  position : Position
deriving DecidableEq, Hashable

namespace Location

/-- A document as a whole, at its start. -/
def file (origin : Origin) : Location := ⟨origin, .zero⟩

/-- The line as people count it, from one. -/
def line (location : Location) : Nat := location.position.displayLine

/-- Document, line and character. -/
def display (location : Location) : String :=
  s!"{location.origin.name}:{location.position.display}"

end Location

/-- A problem to be reported. -/
structure Diagnostic where
  /-- What kind of problem it is. -/
  code : ErrorCode
  /-- How bad it is. -/
  severity : Severity
  /-- What is wrong. -/
  message : String
  /-- Where it is, if it is anywhere. -/
  location : Option Location
  /-- What else there is to say. -/
  notes : List String
deriving DecidableEq, Hashable

namespace Diagnostic

/-! ## Building -/

/-- A diagnostic that says no more than its code. -/
def ofCode (severity : Severity) (code : ErrorCode) : Diagnostic :=
  ⟨code, severity, code.description, none, []⟩

/-- An error that says no more than its code. -/
def error (code : ErrorCode) : Diagnostic := ofCode .error code

/-- A warning that says no more than its code. -/
def warning (code : ErrorCode) : Diagnostic := ofCode .warning code

def withMessage (message : String) (diagnostic : Diagnostic) : Diagnostic :=
  { diagnostic with message }

def atPosition (origin : Origin) (position : Position) (diagnostic : Diagnostic) : Diagnostic :=
  { diagnostic with location := some ⟨origin, position⟩ }

/-- Point at a document as a whole. -/
def inFile (origin : Origin) (diagnostic : Diagnostic) : Diagnostic :=
  { diagnostic with location := some (.file origin) }

def withNote (note : String) (diagnostic : Diagnostic) : Diagnostic :=
  { diagnostic with notes := diagnostic.notes ++ [note] }

/-! ## Questions -/

def isError (diagnostic : Diagnostic) : Bool := diagnostic.severity == .error

def isWarning (diagnostic : Diagnostic) : Bool := diagnostic.severity == .warning

def origin? (diagnostic : Diagnostic) : Option Origin := diagnostic.location.map (·.origin)

/-- The line it is about, counted from one. -/
def line? (diagnostic : Diagnostic) : Option Nat := diagnostic.location.map (·.line)

/-- The diagnostic as it is printed: a head line, the place, and a line for every note. -/
def display (diagnostic : Diagnostic) : String :=
  let head := s!"{diagnostic.severity.name}[{diagnostic.code.name}]: {diagnostic.message}"
  let place :=
    match diagnostic.location with
    | some location => s!"\n  --> {location.display}"
    | none => ""
  let notes := diagnostic.notes.map fun note ↦ s!"\n  = note: {note}"
  String.join (head :: place :: notes)

/-! ## Order -/

/-- Compare by place: no place first, then document, line and character. -/
def compareLocation (a b : Diagnostic) : Ordering :=
  match a.location, b.location with
  | none, none => .eq
  | none, some _ => .lt
  | some _, none => .gt
  | some la, some lb =>
    (compare la.origin lb.origin).then <|
      (compare la.position.line lb.position.line).then
        (compare la.position.character lb.position.character)

end Diagnostic

end CommentBlocks
