import CommentBlocks.Text.Basic

/-!
# UTF-16

A character is one 16-bit unit, or two when it lies past U+FFFF: a *lead* and a *trail* surrogate.
As with UTF-8, decoding stops at the first unit that does not fit and hands back what is left, so
units are well-formed exactly when nothing is left.

A file stores each unit as two bytes in one of two orders. `Utf16.units` pairs the bytes up and
drops a last byte without a partner; whether there was one is for the caller to notice.
-/

namespace CommentBlocks

namespace Utf16

/-- The order in which the two bytes of a unit are stored. -/
inductive ByteOrder where
  /-- Low byte first. -/
  | little
  /-- High byte first. -/
  | big
deriving DecidableEq

/-! ## Encoding -/

/-- The units of one character. -/
def encodeChar (c : Char) : List Nat :=
  let n := c.toNat
  if n < 0x10000 then [n]
  else [0xD800 + (n - 0x10000) / 0x400, 0xDC00 + (n - 0x10000) % 0x400]

def unitBytes : ByteOrder → Nat → Bytes
  | .little, unit => [UInt8.ofNat (unit % 0x100), UInt8.ofNat (unit / 0x100)]
  | .big, unit => [UInt8.ofNat (unit / 0x100), UInt8.ofNat (unit % 0x100)]

def encode (order : ByteOrder) (text : Text) : Bytes :=
  (text.flatMap encodeChar).flatMap (unitBytes order)

/-- The bytes that `text` takes in UTF-16, in either order. -/
def byteLength (text : Text) : Nat := 2 * (text.flatMap encodeChar).length

/-! ## Decoding -/

/-- The first half of a surrogate pair. -/
def isLead (unit : Nat) : Bool := 0xD800 ≤ unit && unit < 0xDC00

/-- The second half of a surrogate pair. -/
def isTrail (unit : Nat) : Bool := 0xDC00 ≤ unit && unit < 0xE000

/-- The units stored in `bytes`; a last byte without a partner is left out. -/
def units (order : ByteOrder) : Bytes → List Nat
  | first :: second :: rest =>
    (match order with
      | .little => first.toNat + 0x100 * second.toNat
      | .big => 0x100 * first.toNat + second.toNat) :: units order rest
  | _ => []

/-- The text at the front of some units, and the units from the first misplaced surrogate on. -/
structure Decoded where
  /-- The characters decoded before reading stopped. -/
  text : Text
  /-- The units not decoded. -/
  rest : List Nat
deriving DecidableEq

def Decoded.cons (c : Char) (d : Decoded) : Decoded := ⟨c :: d.text, d.rest⟩

/-- Decode units up to the first surrogate that is not part of a pair. -/
def decode : List Nat → Decoded
  | [] => ⟨[], []⟩
  | [unit] => if isLead unit || isTrail unit then ⟨[], [unit]⟩ else ⟨[Char.ofNat unit], []⟩
  | unit :: next :: rest =>
    if isLead unit && isTrail next then
      (decode rest).cons (Char.ofNat (0x10000 + (unit - 0xD800) * 0x400 + (next - 0xDC00)))
    else if isLead unit || isTrail unit then ⟨[], unit :: next :: rest⟩
    else (decode (next :: rest)).cons (Char.ofNat unit)

end Utf16

end CommentBlocks
