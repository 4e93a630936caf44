import CommentBlocks.Text.Basic

/-!
# UTF-8

Encoding writes a character as one to four bytes. Decoding reads as far as the bytes are the
encoding of some text and hands back what is left: `Utf8.decode` never fails, it stops, and the
bytes are well-formed exactly when nothing is left.

## Where decoding stops

The bytes that remain begin with the first malformed sequence. `Utf8.faultLength` is the length of
that sequence: the bytes up to the first one that no character allows at its place, at least one,
and zero when the input breaks off inside a character that could still have been completed. Which
second bytes a lead byte allows is what keeps overlong forms, surrogates and values past the last
code point out; `Utf8.secondRange` lists the ranges.
-/

namespace CommentBlocks

namespace Utf8

/-! ## Encoding -/

/-- The UTF-8 bytes of one character. -/
def encodeChar (c : Char) : Bytes :=
  let n := c.toNat
  if n < 0x80 then [UInt8.ofNat n]
  else if n < 0x800 then [UInt8.ofNat (0xC0 + n / 0x40), UInt8.ofNat (0x80 + n % 0x40)]
  else if n < 0x10000 then
    [UInt8.ofNat (0xE0 + n / 0x1000), UInt8.ofNat (0x80 + n / 0x40 % 0x40),
      UInt8.ofNat (0x80 + n % 0x40)]
  else
    [UInt8.ofNat (0xF0 + n / 0x40000), UInt8.ofNat (0x80 + n / 0x1000 % 0x40),
      UInt8.ofNat (0x80 + n / 0x40 % 0x40), UInt8.ofNat (0x80 + n % 0x40)]

def encode (text : Text) : Bytes := text.flatMap encodeChar

@[simp] theorem length_encodeChar (c : Char) : (encodeChar c).length = c.utf8Size := by
  have h : c.val.toNat = c.toNat := rfl
  simp only [encodeChar, Char.utf8Size, UInt32.le_iff_toNat_le, UInt32.toNat_ofNatLT, h]
  grind

@[simp] theorem length_encode (text : Text) : (encode text).length = text.byteLength := by
  induction text with
  | nil => rfl
  | cons c text ih => simp_all [encode]

/-! ## Lead bytes -/

/-- Whether `b` continues a character: its two high bits are `10`. -/
def isContinuation (b : UInt8) : Bool := 0x80 ≤ b.toNat && b.toNat < 0xC0

/-- The number of bytes of a character that begins with `b`; zero when no character does. -/
def width (b : UInt8) : Nat :=
  let n := b.toNat
  if n < 0x80 then 1
  else if n < 0xC2 then 0
  else if n < 0xE0 then 2
  else if n < 0xF0 then 3
  else if n < 0xF5 then 4
  else 0

/-- The least and the greatest second byte of a character that begins with `lead`. -/
def secondRange (lead : UInt8) : Nat × Nat :=
  match lead.toNat with
  | 0xE0 => (0xA0, 0xBF)
  | 0xED => (0x80, 0x9F)
  | 0xF0 => (0x90, 0xBF)
  | 0xF4 => (0x80, 0x8F)
  | _ => (0x80, 0xBF)

/-- Whether `second` may follow `lead`. -/
def isSecond (lead second : UInt8) : Bool :=
  (secondRange lead).1 ≤ second.toNat && second.toNat ≤ (secondRange lead).2

/-! ## Decoding -/

/-- The payload of a continuation byte. -/
def low (b : UInt8) : Nat := b.toNat - 0x80

/-- The first character of `bytes` and what follows it, if they begin with a whole character. -/
def decodeChar? : Bytes → Option (Char × Bytes)
  | [] => none
  | a :: rest =>
    match width a, rest with
    | 1, rest => some (Char.ofNat a.toNat, rest)
    | 2, b :: rest =>
      if isSecond a b then some (Char.ofNat ((a.toNat - 0xC0) * 0x40 + low b), rest) else none
    | 3, b :: c :: rest =>
      if isSecond a b && isContinuation c then
        some (Char.ofNat ((a.toNat - 0xE0) * 0x1000 + low b * 0x40 + low c), rest)
      else none
    | 4, b :: c :: d :: rest =>
      if isSecond a b && isContinuation c && isContinuation d then
        some (Char.ofNat ((a.toNat - 0xF0) * 0x40000 + low b * 0x1000 + low c * 0x40 + low d), rest)
      else none
    | _, _ => none

theorem length_lt_of_decodeChar? {bytes rest : Bytes} {c : Char}
    (h : decodeChar? bytes = some (c, rest)) : rest.length < bytes.length := by
  unfold decodeChar? at h
  split at h
  · simp at h
  · split at h
    · simp only [Option.some.injEq, Prod.mk.injEq] at h
      simp [h.2]
    · split at h
      · simp only [Option.some.injEq, Prod.mk.injEq] at h
        simp only [← h.2, List.length_cons]
        omega
      · simp at h
    · split at h
      · simp only [Option.some.injEq, Prod.mk.injEq] at h
        simp only [← h.2, List.length_cons]
        omega
      · simp at h
    · split at h
      · simp only [Option.some.injEq, Prod.mk.injEq] at h
        simp only [← h.2, List.length_cons]
        omega
      · simp at h
    · simp at h

/-- The text at the front of some bytes, and the bytes from the first malformed sequence on. -/
structure Decoded where
  /-- The characters decoded before reading stopped. -/
  text : Text
  /-- The bytes not decoded. -/
  rest : Bytes
deriving DecidableEq

/-- Decode `bytes` up to the first malformed sequence. -/
def decode (bytes : Bytes) : Decoded :=
  match h : decodeChar? bytes with
  | none => ⟨[], bytes⟩
  | some (c, rest) =>
    have : rest.length < bytes.length := length_lt_of_decodeChar? h
    ⟨c :: (decode rest).text, (decode rest).rest⟩
termination_by bytes.length

/-- The length of the malformed sequence that `bytes` begin with, when they begin with no whole
character: zero if they end before the character can be judged. -/
def faultLength : Bytes → Nat
  | [] => 0
  | a :: rest =>
    if width a < 2 then 1
    else
      match rest with
      | [] => 0
      | b :: rest =>
        if !isSecond a b then 1
        else
          match rest with
          | [] => 0
          | c :: rest =>
            if !isContinuation c then 2
            else if rest.isEmpty then 0
            else 3

end Utf8

end CommentBlocks
