import CommentBlocks.Text.Utf16
import CommentBlocks.Text.Utf8
import CommentBlocks.Text.WhiteSpace

/-!
# Text encodings

Files come in one of four encodings and are turned into UTF-8 before they are read. UTF-8 itself
passes through unchanged; whether it is well-formed is found out when a source is made of it.

## Labels and marks

A label names the encoding outright. A byte-order mark of that encoding is then dropped, and the
mark of any other encoding is ordinary content. Without a label a mark decides, and without either
the bytes are taken for UTF-8.
-/

namespace CommentBlocks

/-- The encodings a file may have. -/
inductive Encoding where
  | utf8
  | utf16le
  | utf16be
  | latin1
deriving DecidableEq

/-- Why bytes could not be turned into UTF-8. -/
inductive DecodeError where
  /-- The label names no encoding. -/
  | unknownLabel (label : String)
  /-- The bytes are not of the encoding; the first malformed sequence starts at `offset`. -/
  | malformed (encoding : Encoding) (offset : Nat)
deriving DecidableEq

namespace Encoding

/-! ## Names -/

def all : List Encoding := [utf8, utf16le, utf16be, latin1]

/-- The label by which an encoding is shown. -/
def label : Encoding → String
  | utf8 => "utf-8"
  | utf16le => "utf-16le"
  | utf16be => "utf-16be"
  | latin1 => "iso-8859-1"

/-- The labels by which an encoding is known, in lower case. -/
def labels : Encoding → List String
  | utf8 => ["utf-8", "utf8"]
  | utf16le => ["utf-16le"]
  | utf16be => ["utf-16be"]
  | latin1 => ["iso-8859-1", "latin1"]

/-- The name of an encoding in configuration files. -/
def configName : Encoding → String
  | utf8 => "utf8"
  | utf16le => "utf16-le"
  | utf16be => "utf16-be"
  | latin1 => "latin1"

/-- The encoding with a label. White space around the label and the case of ASCII letters do not
matter. -/
def ofLabel? (label : String) : Option Encoding :=
  let word := (String.ofList (Text.trim label.toList)).toLower
  all.find? fun encoding ↦ word ∈ encoding.labels

def ofConfigName? (name : String) : Option Encoding :=
  all.find? fun encoding ↦ encoding.configName = name

/-! ## Byte-order marks -/

/-- The mark an encoding may begin with; Latin-1 has none. -/
def byteOrderMark? : Encoding → Option Bytes
  | utf8 => some [0xEF, 0xBB, 0xBF]
  | utf16le => some [0xFF, 0xFE]
  | utf16be => some [0xFE, 0xFF]
  | latin1 => none

/-- The encoding whose mark `bytes` begin with, and the length of the mark. -/
def sniff? (bytes : Bytes) : Option (Encoding × Nat) :=
  all.findSome? fun encoding ↦
    encoding.byteOrderMark?.bind fun mark ↦
      if mark.isPrefixOf bytes then some (encoding, mark.length) else none

/-! ## Decoding -/

/-- Turn UTF-16 into UTF-8. A surrogate out of place is reported before a byte too many. -/
def decodeUtf16 (encoding : Encoding) (order : Utf16.ByteOrder) (bytes : Bytes) :
    Except DecodeError Bytes :=
  let decoded := Utf16.decode (Utf16.units order bytes)
  if !decoded.rest.isEmpty then .error (.malformed encoding (Utf16.byteLength decoded.text))
  else if bytes.length % 2 ≠ 0 then .error (.malformed encoding (bytes.length - 1))
  else .ok (Utf8.encode decoded.text)

/-- The text of Latin-1 bytes: each is the code point of a character. -/
def latin1Text (bytes : Bytes) : Text := bytes.map fun b ↦ Char.ofNat b.toNat

/-- Turn Latin-1 into UTF-8. Bytes that are all ASCII are kept. -/
def decodeLatin1 (bytes : Bytes) : Bytes :=
  if bytes.all (·.toNat < 0x80) then bytes else Utf8.encode (latin1Text bytes)

def decode (encoding : Encoding) (bytes : Bytes) : Except DecodeError Bytes :=
  match encoding with
  | utf8 => .ok bytes
  | latin1 => .ok (decodeLatin1 bytes)
  | utf16le => decodeUtf16 utf16le .little bytes
  | utf16be => decodeUtf16 utf16be .big bytes

/-- The encoding of a file and the length of the mark to drop from it. -/
def choose (bytes : Bytes) (label : Option String) : Except DecodeError (Encoding × Nat) :=
  match label with
  | none => .ok ((sniff? bytes).getD (utf8, 0))
  | some label =>
    match ofLabel? label with
    | none => .error (.unknownLabel label)
    | some encoding =>
      match sniff? bytes with
      | some (sniffed, length) => .ok (encoding, if sniffed = encoding then length else 0)
      | none => .ok (encoding, 0)

end Encoding

namespace DecodeError

def message : DecodeError → String
  | unknownLabel label => s!"unknown text encoding `{label}`"
  | malformed encoding offset => s!"input is not valid {encoding.label} at byte {offset}"

/-- The error as it is for bytes that stand `skipped` bytes into the file. -/
def shift (skipped : Nat) : DecodeError → DecodeError
  | unknownLabel label => unknownLabel label
  | malformed encoding offset => malformed encoding (offset + skipped)

end DecodeError

/-- Turn the bytes of a file into UTF-8 without a byte-order mark, and tell the encoding used.
Offsets in errors count from the start of the file. -/
def decodeFile (bytes : Bytes) (label : Option String) : Except DecodeError (Encoding × Bytes) :=
  match Encoding.choose bytes label with
  | .error error => .error error
  | .ok (encoding, mark) =>
    match encoding.decode (bytes.drop mark) with
    | .error error => .error (error.shift mark)
    | .ok text => .ok (encoding, text)

end CommentBlocks
