import CommentBlocks.Proofs.LongestFronts
import CommentBlocks.Proofs.ResumedScan
import Mathlib.Data.List.Induction

/-!
# What makes a source

Bytes make a source, or they are too many, or they are not UTF-8; and in the last case the error
names the position of the first byte that cannot be read. Shown here is which of the three it is
for any bytes, and that the position is the one a cursor comes to by reading what can be read.

Nobody reads anything to find that position. It is put together from counts over the bytes: line
feeds, bytes since the last of them that begin a character, bytes in all. Counting agrees with
reading character by character because it does so for one more character at the end
(`locate_append_encodeChar`): the bytes of a character hold a line feed only if the character is
one, and one byte of them begins it.
-/

namespace CommentBlocks

/-! ## Bytes of one character, counted -/

namespace Utf8

theorem countP_encodeChar (c : Char) : (encodeChar c).countP (fun b ↦ !isContinuation b) = 1 := by
  obtain ⟨lead, tail, hc, hlead, htail⟩ := exists_encodeChar_eq_cons c
  have hnone : tail.countP (fun b ↦ !isContinuation b) = 0 := by
    rw [List.countP_eq_zero]
    intro b hb
    rw [htail b hb]
    exact Bool.false_ne_true
  rw [hc, List.countP_cons_of_pos, hnone]
  rw [hlead]
  rfl

theorem beq_feed_of_mem_encodeChar {c : Char} (hc : c ≠ '\n') {b : UInt8} (hb : b ∈ encodeChar c) :
    (b == 0x0A) = false := by
  rw [beq_eq_false_iff_ne]
  rintro rfl
  obtain ⟨lead, tail, hlead, -, htail⟩ := exists_encodeChar_eq_cons c
  rw [hlead, List.mem_cons] at hb
  rcases hb with rfl | hb
  · -- the character begins as the line feed does, and no character begins another
    have hfeed : encodeChar c ++ [] = encodeChar '\n' ++ tail := by
      rw [List.append_nil, hlead]
      rfl
    exact hc (encodeChar_append_inj hfeed).1
  · exact absurd (htail _ hb) (by decide)

end Utf8

/-! ## Counting and reading -/

theorem Position.eq_mk {p : Position} {line : Nat} (h : p.line = line) :
    p = ⟨line, p.character, p.byteOffset⟩ := by
  rw [← h]

namespace Source

variable (bytes : Bytes) (start : Position)

theorem line_locate : (locate bytes start).line = start.line + bytes.countP (· == 0x0A) := by
  rw [locate]
  split
  · rfl
  · next hnone =>
    have hzero : bytes.countP (· == 0x0A) = 0 := by
      rw [List.countP_eq_zero]
      intro b hb hfeed
      exact hnone (List.any_eq_true.mpr ⟨b, hb, hfeed⟩)
    rw [hzero]
    rfl

theorem byteOffset_locate : (locate bytes start).byteOffset = start.byteOffset + bytes.length := by
  rw [locate]
  split <;> rfl

variable {bytes} in
theorem character_locate_of_feed (h : bytes.any (· == 0x0A) = true) :
    (locate bytes start).character
      = (bytes.reverse.takeWhile fun b ↦ !(b == 0x0A)).countP fun b ↦ !Utf8.isContinuation b := by
  rw [locate, if_pos h]

variable {bytes} in
theorem character_locate_of_no_feed (h : ¬bytes.any (· == 0x0A) = true) :
    (locate bytes start).character
      = start.character + bytes.countP fun b ↦ !Utf8.isContinuation b := by
  rw [locate, if_neg h]

theorem any_feed_append_encodeChar {c : Char} (hc : c ≠ '\n') :
    (bytes ++ Utf8.encodeChar c).any (· == 0x0A) = bytes.any (· == 0x0A) := by
  have hnone : (Utf8.encodeChar c).any (· == 0x0A) = false := by
    rw [List.any_eq_false]
    intro b hb
    exact Bool.eq_false_iff.mp (Utf8.beq_feed_of_mem_encodeChar hc hb)
  rw [List.any_append, hnone, Bool.or_false]

theorem character_locate_append_encodeChar {c : Char} (hc : c ≠ '\n') :
    (locate (bytes ++ Utf8.encodeChar c) start).character
      = (locate bytes start).character + 1 := by
  have hany := any_feed_append_encodeChar bytes hc
  by_cases hfeed : bytes.any (· == 0x0A) = true
  · have hreverse : ∀ b ∈ (Utf8.encodeChar c).reverse, !(b == 0x0A) := by
      intro b hb
      rw [Utf8.beq_feed_of_mem_encodeChar hc (List.mem_reverse.mp hb)]
      rfl
    rw [character_locate_of_feed start (hany.trans hfeed), character_locate_of_feed start hfeed,
      List.reverse_append, List.takeWhile_append_of_pos hreverse, List.countP_append,
      List.countP_reverse, Utf8.countP_encodeChar, Nat.add_comm]
  · rw [← hany] at hfeed
    rw [character_locate_of_no_feed start hfeed, List.countP_append, Utf8.countP_encodeChar]
    rw [hany] at hfeed
    rw [character_locate_of_no_feed start hfeed, Nat.add_assoc]

/-- **Counting one more character is reading it.** -/
theorem locate_append_encodeChar (c : Char) :
    locate (bytes ++ Utf8.encodeChar c) start = (locate bytes start).advance c := by
  have hbytes : (locate (bytes ++ Utf8.encodeChar c) start).byteOffset
      = (locate bytes start).byteOffset + c.utf8Size := by
    rw [byteOffset_locate, byteOffset_locate, List.length_append, Utf8.length_encodeChar,
      Nat.add_assoc]
  have hlines : (locate (bytes ++ Utf8.encodeChar c) start).line
      = (locate bytes start).line + (Utf8.encodeChar c).countP (· == 0x0A) := by
    rw [line_locate, line_locate, List.countP_append, Nat.add_assoc]
  by_cases hc : c = '\n'
  · have hfeed : (bytes ++ Utf8.encodeChar c).any (· == 0x0A) = true := by
      rw [hc, List.any_append, Bool.or_eq_true]
      exact Or.inr rfl
    have hcharacter : (locate (bytes ++ Utf8.encodeChar c) start).character = 0 := by
      rw [character_locate_of_feed start hfeed, hc, List.reverse_append]
      rfl
    rw [Position.advance, if_pos hc, ← hbytes, ← hcharacter]
    rw [hc] at hlines ⊢
    exact Position.eq_mk hlines
  · have hnone : (Utf8.encodeChar c).countP (· == 0x0A) = 0 := by
      rw [List.countP_eq_zero]
      intro b hb
      exact Bool.eq_false_iff.mp (Utf8.beq_feed_of_mem_encodeChar hc hb)
    rw [hnone] at hlines
    rw [Position.advance, if_neg hc, ← hbytes, ← character_locate_append_encodeChar _ _ hc]
    exact Position.eq_mk hlines

/-- **Counting is reading.** -/
theorem locate_encode (text : Text) : locate (Utf8.encode text) start = start.advanceText text := by
  induction text using List.reverseRecOn with
  | nil => rfl
  | append_singleton text c ih =>
    rw [Utf8.encode_append, Utf8.encode_cons, Utf8.encode_nil, List.append_nil,
      locate_append_encodeChar, ih, Position.advanceText_append, Position.advanceText_cons,
      Position.advanceText_nil]

/-! ## Checking -/

/-- What comes of bytes that fit a document is a matter of their longest front. -/
theorem exists_ofBytes_eq {bytes : Bytes} (origin : Origin) {start : Position}
    (hfits : start.byteOffset + bytes.length ≤ maxOffset) :
    ∃ text, IsLongestFront Utf8.encode bytes text ∧ ∃ length, ofBytes bytes origin start
      = if Utf8.encode text = bytes then .ok ⟨text, origin, start⟩
        else .error (.invalidUtf8 origin (start.advanceText text) length) := by
  have hbytes := Utf8.encode_decode_append bytes
  refine ⟨_, Utf8.isLongestFront_decode bytes, Utf8.faultLength (Utf8.decode bytes).rest, ?_⟩
  rw [ofBytes, if_neg (Nat.not_lt.mpr hfits)]
  dsimp only
  by_cases hrest : (Utf8.decode bytes).rest = []
  · rw [hrest, List.append_nil] at hbytes
    rw [if_pos hbytes, hrest]
    rfl
  · have hne : Utf8.encode (Utf8.decode bytes).text ≠ bytes := by
      intro heq
      exact hrest (List.append_cancel_left
        (hbytes.trans (heq.symm.trans (List.append_nil _).symm)))
    have htake : bytes.take (bytes.length - (Utf8.decode bytes).rest.length)
        = Utf8.encode (Utf8.decode bytes).text := by
      have hlength := congrArg List.length hbytes
      rw [List.length_append] at hlength
      rw [← hlength, Nat.add_sub_cancel]
      exact (List.prefix_iff_eq_take.mp ⟨_, hbytes⟩).symm
    rw [if_neg hne, if_neg (mt List.isEmpty_iff.mp hrest), htake, locate_encode]

/-- **Bytes are sorted as they should be.** They are too many when their end does not fit the
offsets of a document. Otherwise they make a source exactly when they are the UTF-8 of a text, and
the source has these bytes. Otherwise the error is at the position behind the longest text that they
begin with, which makes a source, and a cursor that reads it all comes to this position. -/
theorem ofBytes_sorts_all_bytes (bytes : Bytes) (origin : Origin) (start : Position) :
    ((∃ refused length, ofBytes bytes origin start = .error (.tooLarge refused length))
        ↔ 0xFFFFFFFF < start.byteOffset + bytes.length)
      ∧ (start.byteOffset + bytes.length ≤ 0xFFFFFFFF →
        ((∃ source, ofBytes bytes origin start = .ok source) ↔ ∃ text, bytes = Utf8.encode text)
        ∧ (∀ source, ofBytes bytes origin start = .ok source →
          source.bytes = bytes ∧ source.origin = origin ∧ source.start = start)
        ∧ ((¬∃ text, bytes = Utf8.encode text) → ∃ front length,
          IsLongestFront Utf8.encode bytes front.text
            ∧ ofBytes (Utf8.encode front.text) origin start = .ok front
            ∧ ofBytes bytes origin start
              = .error (.invalidUtf8 origin (start.advanceText front.text) length)
            ∧ front.cursor.takeRest.2.position = start.advanceText front.text)) := by
  by_cases hlarge : maxOffset < start.byteOffset + bytes.length
  · have herror : ofBytes bytes origin start = .error (.tooLarge origin bytes.length) := by
      rw [ofBytes, if_pos hlarge]
    refine ⟨iff_of_true ⟨_, _, herror⟩ hlarge, ?_⟩
    intro hfits
    exact absurd hlarge (Nat.not_lt.mpr hfits)
  · obtain ⟨text, hfront, length, hresult⟩ := exists_ofBytes_eq origin (Nat.not_lt.mp hlarge)
    by_cases heq : Utf8.encode text = bytes
    · rw [if_pos heq] at hresult
      rw [hresult]
      refine ⟨iff_of_false (by simp) hlarge, ?_⟩
      intro _
      refine ⟨iff_of_true ⟨_, rfl⟩ ⟨text, heq.symm⟩, ?_, ?_⟩
      · rintro _ ⟨⟩
        exact ⟨heq, rfl, rfl⟩
      · intro hbad
        exact absurd ⟨text, heq.symm⟩ hbad
    · have hbad : ¬∃ other, bytes = Utf8.encode other := mt hfront.encode_eq_iff.mpr heq
      rw [if_neg heq] at hresult
      rw [hresult]
      refine ⟨iff_of_false (by simp) hlarge, ?_⟩
      intro hfits
      refine ⟨iff_of_false (by simp) hbad, ?_, ?_⟩
      · rintro _ ⟨⟩
      · intro _
        have hshort : start.byteOffset + text.byteLength ≤ maxOffset := by
          have hle := hfront.isPrefix.length_le
          rw [Utf8.length_encode] at hle
          exact Nat.le_trans (Nat.add_le_add_left hle _) hfits
        exact ⟨⟨text, origin, start⟩, length, hfront, ofBytes_encode origin hshort, rfl, rfl⟩

/-- Part of a document, with an overlong line feed on its second line. -/
theorem ofBytes_sorts_overlong_feed :
    let bytes : Bytes := [0xC3, 0xA9, 0x0A, 0xE2, 0x82, 0xAC, 0xC0, 0x8A, 0x0A]
    (¬∃ text, bytes = Utf8.encode text) ∧ ∃ text, IsLongestFront Utf8.encode bytes text
      ∧ Position.advanceText ⟨3, 5, 20⟩ text = ⟨4, 1, 26⟩ := by
  intro bytes
  have hresult : ofBytes bytes ⟨"a"⟩ ⟨3, 5, 20⟩
      = .error (.invalidUtf8 ⟨"a"⟩ ⟨4, 1, 26⟩ 1) := by
    decide +kernel +zetaReduce
  obtain ⟨hok, -, hbad⟩ := (ofBytes_sorts_all_bytes bytes ⟨"a"⟩ ⟨3, 5, 20⟩).2 (by decide)
  have hne : ¬∃ text, bytes = Utf8.encode text := by
    rw [← hok, hresult]
    rintro ⟨_, ⟨⟩⟩
  obtain ⟨front, length, hfront, -, hposition, -⟩ := hbad hne
  rw [hresult, Except.error.injEq, SourceError.invalidUtf8.injEq] at hposition
  exact ⟨hne, front.text, hfront, hposition.2.1.symm⟩

end Source

end CommentBlocks
