import Mathlib.Data.Nat.PSub
import CommentBlocks.Proofs.BlockContract
import CommentBlocks.Proofs.CheckedSources

/-!
# Counters of thirty-two bits

A document is refused if its byte offsets do not fit thirty-two bits, and nothing else is tested.
Lines and characters are counted as well, both are shown from one, and comments that nest have a
depth. Here is a way to count that checks every sum: `counter?` has no answer for a number that does
not fit, and a computation that meets one has no answer either.

## Why the sums fit

Lines and characters together are never more than bytes: a line feed adds a line and forgets the
characters, any other character adds one of them, and both take a byte at least. So the room that
the offset has is room for all three (`Cursor.HasRoom`), and reading what comes next keeps it so.
What is shown is one more, and is shown only of places where something is still to be read.

That a computation comes to the same with checked and with plain counts is said by `Agrees`,
together with what is to be known about the result. It goes through a computation step by step
(`Agrees.bind`).
-/

namespace CommentBlocks

/-! ## Checked counts -/

/-- A number, if it fits a counter. -/
def counter? (n : Nat) : Option Nat := if n < 4294967296 then some n else none

theorem lt_of_counter? {n k : Nat} (h : counter? n = some k) : n < 4294967296 := by
  by_contra hlarge
  rw [counter?, if_neg hlarge] at h
  cases h

/-- Checked counts. Nothing is taken from zero. -/
instance : Counting Option where
  count := counter?
  pred := Nat.ppred

/-- Checked counts lead to what plain counts lead to, of which `Keeps` holds. -/
structure Agrees {α : Type} (checked : Option α) (plain : Id α) (Keeps : α → Prop) : Prop where
  /-- No counter was exceeded. -/
  eq : checked = some (Id.run plain)
  /-- What is known of the result. -/
  keeps : Keeps (Id.run plain)

namespace Agrees

variable {α β : Type} {checked : Option α} {plain : Id α} {Keeps : α → Prop} {KeepsNext : β → Prop}

theorem pure {value : α} (h : Keeps value) : Agrees (pure value) (pure value) Keeps := ⟨rfl, h⟩

theorem bind {checkedNext : α → Option β} {plainNext : α → Id β} (h : Agrees checked plain Keeps)
    (hnext : ∀ value, Id.run plain = value → Keeps value →
      Agrees (checkedNext value) (plainNext value) KeepsNext) :
    Agrees (checked >>= checkedNext) (plain >>= plainNext) KeepsNext := by
  have hvalue := hnext _ rfl h.keeps
  rw [h.eq]
  exact ⟨hvalue.eq, hvalue.keeps⟩

theorem count {n : Nat} (h : n ≤ Source.maxOffset) :
    Agrees (Counting.count n) (Counting.count n) (· = n) :=
  ⟨if_pos (Nat.lt_succ_of_le h), rfl⟩

theorem count_bind {n : Nat} {checkedNext : Nat → Option β} {plainNext : Nat → Id β}
    (h : n ≤ Source.maxOffset) (hnext : Agrees (checkedNext n) (plainNext n) KeepsNext) :
    Agrees (Counting.count n >>= checkedNext) (Counting.count n >>= plainNext) KeepsNext := by
  refine (count h).bind ?_
  rintro _ - rfl
  exact hnext

theorem pred {n : Nat} (h : 0 < n) : Agrees (Counting.pred n) (Counting.pred n) (· = n - 1) :=
  ⟨Nat.ppred_eq_pred h, rfl⟩

theorem mono {Weaker : α → Prop} (h : Agrees checked plain Keeps)
    (hweaker : ∀ value, Keeps value → Weaker value) : Agrees checked plain Weaker :=
  ⟨h.eq, hweaker _ h.keeps⟩

end Agrees

/-! ## Positions -/

namespace Position

def displayLine? (p : Position) : Option Nat := counter? (p.line + 1)

/-- Line and character as people count them, if they fit. -/
def display? (p : Position) : Option String := do
  let line ← counter? (p.line + 1)
  let character ← counter? (p.character + 1)
  return s!"{line}:{character}"

/-- All three counts fit. -/
structure Fits (p : Position) : Prop where
  /-- The line fits. -/
  line : p.line < 4294967296
  /-- The character fits. -/
  character : p.character < 4294967296
  /-- The byte offset fits. -/
  byteOffset : p.byteOffset < 4294967296

/-- Line and character can be shown. -/
structure IsShowable (p : Position) : Prop where
  /-- The line can be shown. -/
  displayLine? : p.displayLine? = some p.displayLine
  /-- Line and character can be shown. -/
  display? : p.display? = some p.display

/-- So many bytes can be read from the position on. -/
structure HasRoom (p : Position) (bytes : Nat) : Prop where
  /-- Lines and characters are no more than bytes. -/
  counted : p.line + p.character ≤ p.byteOffset
  /-- The bytes are within a document. -/
  within : p.byteOffset + bytes ≤ Source.maxOffset

namespace HasRoom

variable {p : Position} {bytes : Nat}

theorem fits (h : p.HasRoom bytes) : p.Fits := by
  have hcounted := h.counted
  have hwithin : p.byteOffset + bytes ≤ 4294967295 := h.within
  exact ⟨by omega, by omega, by omega⟩

/-- What is shown is one more than what is counted, for which the next byte has room. -/
theorem isShowable (h : p.HasRoom bytes) (hbytes : 0 < bytes) : p.IsShowable := by
  have hcounted := h.counted
  have hwithin := h.within
  have hline : counter? (p.line + 1) = some (p.line + 1) :=
    (Agrees.count (by omega)).eq
  have hcharacter : counter? (p.character + 1) = some (p.character + 1) :=
    (Agrees.count (by omega)).eq
  refine ⟨hline, ?_⟩
  rw [display?, hline, hcharacter]
  rfl

/-- **A character keeps lines and characters within bytes.** -/
theorem agrees_advanceM {c : Char} (h : p.HasRoom (c.utf8Size + bytes)) :
    Agrees (p.advanceM c) (p.advanceM c) (HasRoom · bytes) := by
  have hcounted := h.counted
  have hwithin := h.within
  have hc := c.utf8Size_pos
  rw [advanceM, advanceM]
  refine .count_bind (by omega) ?_
  split
  · refine .count_bind (by omega) ?_
    exact .pure ⟨by dsimp only; omega, by dsimp only; omega⟩
  · refine .count_bind (by omega) ?_
    exact .pure ⟨by dsimp only; omega, by dsimp only; omega⟩

theorem agrees_advanceTextM {text : Text} (h : p.HasRoom (text.byteLength + bytes)) :
    Agrees (p.advanceTextM text) (p.advanceTextM text) (HasRoom · bytes) := by
  induction text generalizing p with
  | nil =>
    rw [Text.byteLength_nil, Nat.zero_add] at h
    exact .pure h
  | cons c text ih =>
    rw [Text.byteLength_cons, Nat.add_assoc] at h
    exact h.agrees_advanceM.bind fun _ _ hnext ↦ ih hnext

end HasRoom

end Position

/-! ## Positions of faults -/

namespace Source

section Counted

variable {m : Type → Type} [Monad m] [Counting m]

/-- The position after some bytes, with all that is counted for it. -/
def locateM (bytes : Bytes) (start : Position) : m Position := do
  let isLineFeed (b : UInt8) : Bool := b == 0x0A
  let characters (tail : Bytes) : m Nat :=
    Counting.count (tail.countP fun b ↦ !Utf8.isContinuation b)
  let feeds ← Counting.count (bytes.countP isLineFeed)
  let length ← Counting.count bytes.length
  let byteOffset ← Counting.count (start.byteOffset + length)
  if bytes.any isLineFeed then
    let line ← Counting.count (start.line + feeds)
    let character ← characters (bytes.reverse.takeWhile fun b ↦ !isLineFeed b)
    return ⟨line, character, byteOffset⟩
  else
    let count ← characters bytes
    let character ← Counting.count (start.character + count)
    return ⟨start.line, character, byteOffset⟩

/-- Check bytes as a part of a document, with all that is counted for an error. -/
def ofBytesM (bytes : Bytes) (origin : Origin) (start : Position) :
    m (Except SourceError Source) := do
  if maxOffset < start.byteOffset + bytes.length then
    return .error (.tooLarge origin bytes.length)
  else
    let decoded := Utf8.decode bytes
    if decoded.rest.isEmpty then return .ok ⟨decoded.text, origin, start⟩
    else
      let valid := bytes.take (bytes.length - decoded.rest.length)
      let position ← locateM valid start
      let length ← Counting.count (Utf8.faultLength decoded.rest)
      return .error (.invalidUtf8 origin position length)

end Counted

theorem run_locateM (bytes : Bytes) (start : Position) :
    Id.run (locateM bytes start) = locate bytes start := by
  unfold locateM locate
  dsimp only [Id.run_bind]
  split <;> rfl

theorem run_ofBytesM (bytes : Bytes) (origin : Origin) (start : Position) :
    Id.run (ofBytesM bytes origin start) = ofBytes bytes origin start := by
  rw [ofBytesM, ofBytes]
  split
  · rfl
  · dsimp only
    split
    · rfl
    · rw [Id.run_bind, run_locateM]
      rfl

/-- Check bytes as a part of a document, if no counter is exceeded. -/
def ofBytes? (bytes : Bytes) (origin : Origin) (start : Position) :
    Option (Except SourceError Source) :=
  ofBytesM bytes origin start

/-- The line feeds and the bytes behind the last of them are different bytes. -/
theorem countP_feed_add_length_le (bytes : Bytes) :
    bytes.countP (· == 0x0A) + (bytes.reverse.takeWhile fun b ↦ !(b == 0x0A)).length
      ≤ bytes.length := by
  have hsplit := List.takeWhile_append_dropWhile (p := fun b : UInt8 ↦ !(b == 0x0A))
    (l := bytes.reverse)
  have hnone : (bytes.reverse.takeWhile fun b ↦ !(b == 0x0A)).countP (· == 0x0A) = 0 := by
    rw [List.countP_eq_zero]
    intro b hb
    simpa using List.all_eq_true.mp List.all_takeWhile b hb
  have hfeeds := congrArg (List.countP (· == 0x0A)) hsplit
  have hlength := congrArg List.length hsplit
  have hle := List.countP_le_length (p := (· == (0x0A : UInt8)))
    (l := bytes.reverse.dropWhile fun b ↦ !(b == 0x0A))
  rw [List.countP_append, hnone, List.countP_reverse] at hfeeds
  rw [List.length_append, List.length_reverse] at hlength
  omega

/-- **What is counted for the position of a fault fits**, and leaves the room for the fault. -/
theorem agrees_locateM {bytes : Bytes} {start : Position} {more : Nat}
    (h : start.HasRoom (bytes.length + more)) :
    Agrees (locateM bytes start) (locateM bytes start) (Position.HasRoom · more) := by
  have hcounted := h.counted
  have hwithin := h.within
  have hfeeds := countP_feed_add_length_le bytes
  have hall := List.countP_le_length (p := fun b ↦ !Utf8.isContinuation b) (l := bytes)
  have htail := List.countP_le_length (p := fun b ↦ !Utf8.isContinuation b)
    (l := bytes.reverse.takeWhile fun b ↦ !(b == 0x0A))
  rw [locateM, locateM]
  dsimp only
  refine .count_bind (by omega) ?_
  refine .count_bind (by omega) ?_
  refine .count_bind (by omega) ?_
  split
  · refine .count_bind (by omega) ?_
    refine .count_bind (by omega) ?_
    exact .pure ⟨by dsimp only; omega, by dsimp only; omega⟩
  · refine .count_bind (by omega) ?_
    refine .count_bind (by omega) ?_
    exact .pure ⟨by dsimp only; omega, by dsimp only; omega⟩

theorem faultLength_le (bytes : Bytes) : Utf8.faultLength bytes ≤ 3 := by
  unfold Utf8.faultLength
  repeat' split
  all_goals omega

/-- **Checking bytes exceeds no counter.** The position of a fault can be shown. -/
theorem agrees_ofBytesM (bytes : Bytes) (origin : Origin) {start : Position}
    (h : start.line + start.character ≤ start.byteOffset) :
    Agrees (ofBytesM bytes origin start) (ofBytesM bytes origin start) fun result ↦
      ∀ refused position length, result = .error (.invalidUtf8 refused position length) →
        position.Fits ∧ position.IsShowable := by
  rw [ofBytesM, ofBytesM]
  split
  · refine .pure ?_
    rintro refused position length ⟨⟩
  · next hlarge =>
    dsimp only
    split
    · refine .pure ?_
      rintro refused position length ⟨⟩
    · next hrest =>
      have hfault : 0 < (Utf8.decode bytes).rest.length :=
        List.length_pos_iff.mpr (mt List.isEmpty_iff.mpr hrest)
      have hbytes := congrArg List.length (Utf8.encode_decode_append bytes)
      rw [List.length_append] at hbytes
      have hroom : start.HasRoom
          ((bytes.take (bytes.length - (Utf8.decode bytes).rest.length)).length
            + (Utf8.decode bytes).rest.length) := by
        rw [List.length_take]
        exact ⟨h, by omega⟩
      have hlength : Utf8.faultLength (Utf8.decode bytes).rest ≤ maxOffset :=
        Nat.le_trans (faultLength_le _) (by decide)
      refine (agrees_locateM hroom).bind fun place _ hplace ↦ .count_bind hlength (.pure ?_)
      rintro refused position length ⟨⟩
      exact ⟨hplace.fits, hplace.isShowable hfault⟩

end Source

/-! ## Reading -/

namespace Cursor

/-- There is room for all that is unread. -/
def HasRoom (cursor : Cursor) : Prop := cursor.position.HasRoom cursor.rest.byteLength

namespace HasRoom

variable {cursor next : Cursor} {text rest : Text}

theorem of_here_eq (h : cursor.HasRoom) (hhere : next.here = cursor.here) : next.HasRoom := by
  rw [HasRoom, position, Cursor.rest, hhere]
  exact h

/-- **Reading what comes next keeps the room.** -/
theorem agrees_readM (h : cursor.HasRoom) (hrest : cursor.rest = text ++ rest) :
    Agrees (cursor.readM text) (cursor.readM text) HasRoom := by
  rw [HasRoom, hrest, Text.byteLength_append] at h
  refine h.agrees_advanceTextM.bind fun position _ hposition ↦ .pure ?_
  change position.HasRoom (Text.byteLength (cursor.rest.drop text.length))
  rw [hrest, List.drop_left]
  exact hposition

theorem read (h : cursor.HasRoom) (hrest : cursor.rest = text ++ rest) :
    (cursor.read text).HasRoom := by
  have hread := (h.agrees_readM hrest).keeps
  rw [run_readM] at hread
  exact hread

theorem passes (h : cursor.HasRoom) (hpasses : cursor.Passes next text) : next.HasRoom := by
  obtain ⟨rest, hrest⟩ := hpasses.rest
  exact (h.read hrest).of_here_eq hpasses.here

theorem agrees_matchTokenM (h : cursor.HasRoom) (token : Text) :
    Agrees (cursor.matchTokenM token) (cursor.matchTokenM token) (·.2.HasRoom) := by
  rw [matchTokenM, matchTokenM]
  split
  · next hstart =>
    obtain ⟨-, rest, hrest⟩ := Text.startsWith_iff.mp hstart
    exact (h.agrees_readM hrest).bind fun _ _ hafter ↦ .pure hafter
  · exact .pure h

theorem agrees_reading {step : Cursor → Text × Cursor} (h : cursor.HasRoom)
    (hrest : cursor.rest = (step cursor).1 ++ rest) :
    Agrees (cursor.reading step) (cursor.reading step) (·.2.HasRoom) :=
  (h.agrees_readM hrest).bind fun _ _ hnext ↦ .pure hnext

theorem agrees_skipSpaces (h : cursor.HasRoom) (exclude : Option Char) :
    Agrees (cursor.reading (·.skipSpaces exclude)) (cursor.reading (·.skipSpaces exclude))
      (·.2.HasRoom) :=
  h.agrees_reading List.takeWhile_append_dropWhile.symm

theorem agrees_take (h : cursor.HasRoom) (n : Nat) :
    Agrees (cursor.reading (·.take n)) (cursor.reading (·.take n)) (·.2.HasRoom) :=
  h.agrees_reading (List.take_append_drop n _).symm

theorem agrees_takeLine (h : cursor.HasRoom) :
    Agrees (cursor.reading takeLine) (cursor.reading takeLine) (·.2.HasRoom) := by
  have hrest : cursor.rest = cursor.takeLine.1 ++ (Text.splitLine cursor.rest).2 := by
    rw [takeLine_eq, Text.splitLine_append]
  exact h.agrees_reading hrest

theorem agrees_eatLineBreak (h : cursor.HasRoom) :
    Agrees cursor.eatLineBreak cursor.eatLineBreak (·.2.HasRoom) := by
  refine (h.agrees_matchTokenM ['\n']).bind ?_
  rintro ⟨_ | _, after⟩ - hafter
  · exact hafter.agrees_matchTokenM _
  · exact .pure hafter

theorem agrees_giveUp (h : cursor.HasRoom) :
    Agrees cursor.giveUp cursor.giveUp fun _ ↦ True :=
  (h.agrees_reading (List.append_nil _).symm).bind fun _ _ _ ↦ .pure trivial

end HasRoom

end Cursor

end CommentBlocks
