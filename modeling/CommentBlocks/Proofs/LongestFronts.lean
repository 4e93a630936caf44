import CommentBlocks.Proofs.Utf16
import CommentBlocks.Proofs.Utf8
import Mathlib.Data.List.Induction

/-!
# How far bytes can be read

Bytes that are not the encoding of a text begin with the encoding of one, be it the empty text. A
decoder that stops is right to stop where the longest such text ends (`IsLongestFront`), and an
error that names this place names the first byte that cannot be read.

Both decoders stop there (`Utf8.isLongestFront_decode`, `Utf16.isLongestFront_decode`), and each for
two reasons. What the bytes begin with is read whatever follows, so reading never stops too early;
this is the prefix property of the codes. And what is read, written again, is what the bytes begin
with, so reading never goes too far; that is shown here. It is the half that overlong forms,
surrogates and values past the last code point would break.
-/

namespace CommentBlocks

/-- The longest text that `bytes` begin with, as `encode` writes it. -/
structure IsLongestFront (encode : Text → Bytes) (bytes : Bytes) (text : Text) : Prop where
  /-- The bytes begin with the text. -/
  isPrefix : encode text <+: bytes
  /-- They begin with no longer one. -/
  longest : ∀ {other : Text}, encode other <+: bytes → (encode other).length ≤ (encode text).length

theorem IsLongestFront.encode_eq_iff {encode : Text → Bytes} {bytes : Bytes} {text : Text}
    (h : IsLongestFront encode bytes text) :
    encode text = bytes ↔ ∃ other, bytes = encode other := by
  constructor
  · intro heq
    exact ⟨text, heq.symm⟩
  · rintro ⟨other, rfl⟩
    exact h.isPrefix.eq_of_length_le (h.longest (List.prefix_refl _))

/-! ## UTF-8 -/

namespace Utf8

theorem width_eq_one {a : UInt8} (h : width a = 1) : a.toNat < 0x80 := by
  unfold width at h
  grind

theorem width_eq_two {a : UInt8} (h : width a = 2) : 0xC2 ≤ a.toNat ∧ a.toNat < 0xE0 := by
  unfold width at h
  grind

theorem width_eq_three {a : UInt8} (h : width a = 3) : 0xE0 ≤ a.toNat ∧ a.toNat < 0xF0 := by
  unfold width at h
  grind

theorem width_eq_four {a : UInt8} (h : width a = 4) : 0xF0 ≤ a.toNat ∧ a.toNat < 0xF5 := by
  unfold width at h
  grind

theorem isContinuation_iff {b : UInt8} :
    isContinuation b = true ↔ 0x80 ≤ b.toNat ∧ b.toNat < 0xC0 := by
  rw [isContinuation, Bool.and_eq_true, decide_eq_true_iff, decide_eq_true_iff]

theorem isSecond_bounds {a b : UInt8} (h : isSecond a b = true) :
    (0x80 ≤ b.toNat ∧ b.toNat < 0xC0)
      ∧ (a.toNat = 0xE0 → 0xA0 ≤ b.toNat) ∧ (a.toNat = 0xED → b.toNat < 0xA0)
      ∧ (a.toNat = 0xF0 → 0x90 ≤ b.toNat) ∧ (a.toNat = 0xF4 → b.toNat < 0x90) := by
  unfold isSecond secondRange at h
  rw [Bool.and_eq_true, decide_eq_true_iff, decide_eq_true_iff] at h
  grind

private theorem ofNat_eq {b : UInt8} {n : Nat} (h : n = b.toNat) : UInt8.ofNat n = b := by
  rw [h, UInt8.ofNat_toNat]

private theorem encodeChar_one {a : UInt8} (ha : a.toNat < 0x80) :
    encodeChar (Char.ofNat a.toNat) = [a] := by
  have hn := toNat_ofNat_of_isValidChar (n := a.toNat) (by omega)
  simp only [encodeChar, hn]
  rw [if_pos ha, ofNat_eq rfl]

private theorem encodeChar_two {a b : UInt8} (ha : 0xC2 ≤ a.toNat ∧ a.toNat < 0xE0)
    (hb : 0x80 ≤ b.toNat ∧ b.toNat < 0xC0) :
    encodeChar (Char.ofNat ((a.toNat - 0xC0) * 0x40 + low b)) = [a, b] := by
  have hlow : low b = b.toNat - 0x80 := rfl
  have hn := toNat_ofNat_of_isValidChar (n := (a.toNat - 0xC0) * 0x40 + low b) (by omega)
  simp only [encodeChar, hn]
  rw [if_neg (by omega), if_pos (by omega), ofNat_eq (b := a) (by omega),
    ofNat_eq (b := b) (by omega)]

private theorem encodeChar_three {a b c : UInt8} (ha : 0xE0 ≤ a.toNat ∧ a.toNat < 0xF0)
    (hb : isSecond a b = true) (hc : 0x80 ≤ c.toNat ∧ c.toNat < 0xC0) :
    encodeChar (Char.ofNat ((a.toNat - 0xE0) * 0x1000 + low b * 0x40 + low c)) = [a, b, c] := by
  have hsecond := isSecond_bounds hb
  have hlow : low b = b.toNat - 0x80 := rfl
  have hlow' : low c = c.toNat - 0x80 := rfl
  -- the bounds on the second byte keep the value past `0x7FF` and out of the surrogates
  have hn := toNat_ofNat_of_isValidChar
    (n := (a.toNat - 0xE0) * 0x1000 + low b * 0x40 + low c) (by omega)
  simp only [encodeChar, hn]
  rw [if_neg (by omega), if_neg (by omega), if_pos (by omega), ofNat_eq (b := a) (by omega),
    ofNat_eq (b := b) (by omega), ofNat_eq (b := c) (by omega)]

private theorem encodeChar_four {a b c d : UInt8} (ha : 0xF0 ≤ a.toNat ∧ a.toNat < 0xF5)
    (hb : isSecond a b = true) (hc : 0x80 ≤ c.toNat ∧ c.toNat < 0xC0)
    (hd : 0x80 ≤ d.toNat ∧ d.toNat < 0xC0) :
    encodeChar (Char.ofNat
        ((a.toNat - 0xF0) * 0x40000 + low b * 0x1000 + low c * 0x40 + low d)) = [a, b, c, d] := by
  have hsecond := isSecond_bounds hb
  have hlow : low b = b.toNat - 0x80 := rfl
  have hlow' : low c = c.toNat - 0x80 := rfl
  have hlow'' : low d = d.toNat - 0x80 := rfl
  -- here they keep it past `0xFFFF` and up to the last code point
  have hn := toNat_ofNat_of_isValidChar
    (n := (a.toNat - 0xF0) * 0x40000 + low b * 0x1000 + low c * 0x40 + low d) (by omega)
  simp only [encodeChar, hn]
  rw [if_neg (by omega), if_neg (by omega), if_neg (by omega), ofNat_eq (b := a) (by omega),
    ofNat_eq (b := b) (by omega), ofNat_eq (b := c) (by omega), ofNat_eq (b := d) (by omega)]

/-- **What is read as a character is how the character is written.** -/
theorem eq_append_of_decodeChar? {bytes rest : Bytes} {c : Char}
    (h : decodeChar? bytes = some (c, rest)) : bytes = encodeChar c ++ rest := by
  fun_cases decodeChar? bytes with
  | case2 a more hwidth =>
    simp only [decodeChar?, hwidth, Option.some.injEq, Prod.mk.injEq] at h
    obtain ⟨rfl, rfl⟩ := h
    rw [encodeChar_one (width_eq_one hwidth), List.singleton_append]
  | case3 a b more hwidth hsecond =>
    simp only [decodeChar?, hwidth, if_pos hsecond, Option.some.injEq, Prod.mk.injEq] at h
    obtain ⟨rfl, rfl⟩ := h
    rw [encodeChar_two (width_eq_two hwidth) (isSecond_bounds hsecond).1]
    rfl
  | case5 a b c more hwidth htail =>
    simp only [decodeChar?, hwidth, if_pos htail, Option.some.injEq, Prod.mk.injEq] at h
    obtain ⟨rfl, rfl⟩ := h
    obtain ⟨hsecond, hthird⟩ := Bool.and_eq_true_iff.mp htail
    rw [encodeChar_three (width_eq_three hwidth) hsecond (isContinuation_iff.mp hthird)]
    rfl
  | case7 a b c d more hwidth htail =>
    simp only [decodeChar?, hwidth, if_pos htail, Option.some.injEq, Prod.mk.injEq] at h
    obtain ⟨rfl, rfl⟩ := h
    rw [Bool.and_eq_true, Bool.and_eq_true] at htail
    obtain ⟨⟨hsecond, hthird⟩, hfourth⟩ := htail
    rw [encodeChar_four (width_eq_four hwidth) hsecond (isContinuation_iff.mp hthird)
      (isContinuation_iff.mp hfourth)]
    rfl
  | case1 | case4 | case6 | case8 | case9 => simp_all [decodeChar?]

theorem encode_decode_append (bytes : Bytes) :
    encode (decode bytes).text ++ (decode bytes).rest = bytes := by
  fun_induction decode bytes with
  | case1 bytes hnone => rfl
  | case2 bytes c rest hsome _ ih =>
    rw [encode_cons, List.append_assoc, ih, ← eq_append_of_decodeChar? hsome]

/-- **Decoding stops where the longest text ends.** -/
theorem isLongestFront_decode (bytes : Bytes) :
    IsLongestFront encode bytes (decode bytes).text := by
  refine ⟨⟨_, encode_decode_append bytes⟩, ?_⟩
  rintro other ⟨rest, rfl⟩
  rw [decode_encode_append, encode_append, List.length_append]
  exact Nat.le_add_right _ _

end Utf8

/-! ## UTF-16 -/

namespace Utf16

theorem isLead_iff {unit : Nat} : isLead unit = true ↔ 0xD800 ≤ unit ∧ unit < 0xDC00 := by
  rw [isLead, Bool.and_eq_true, decide_eq_true_iff, decide_eq_true_iff]

theorem isTrail_iff {unit : Nat} : isTrail unit = true ↔ 0xDC00 ≤ unit ∧ unit < 0xE000 := by
  rw [isTrail, Bool.and_eq_true, decide_eq_true_iff, decide_eq_true_iff]

private theorem encodeChar_unit {unit : Nat} (h : unit < 0x10000)
    (hplain : ¬(isLead unit || isTrail unit) = true) : encodeChar (Char.ofNat unit) = [unit] := by
  rw [Bool.or_eq_true, isLead_iff, isTrail_iff] at hplain
  have hn := toNat_ofNat_of_isValidChar (n := unit) (by omega)
  simp only [encodeChar, hn]
  rw [if_pos h]

private theorem encodeChar_pair {unit next : Nat} (h : (isLead unit && isTrail next) = true) :
    encodeChar (Char.ofNat (0x10000 + (unit - 0xD800) * 0x400 + (next - 0xDC00)))
      = [unit, next] := by
  rw [Bool.and_eq_true, isLead_iff, isTrail_iff] at h
  have hn := toNat_ofNat_of_isValidChar
    (n := 0x10000 + (unit - 0xD800) * 0x400 + (next - 0xDC00)) (by omega)
  have hlead : 0xD800 + (0x10000 + (unit - 0xD800) * 0x400 + (next - 0xDC00) - 0x10000) / 0x400
      = unit := by omega
  have htrail : 0xDC00 + (0x10000 + (unit - 0xD800) * 0x400 + (next - 0xDC00) - 0x10000) % 0x400
      = next := by omega
  simp only [encodeChar, hn]
  rw [if_neg (by omega), hlead, htrail]

theorem flatMap_encodeChar_decode_append {written : List Nat}
    (h : ∀ unit ∈ written, unit < 0x10000) :
    (decode written).text.flatMap encodeChar ++ (decode written).rest = written := by
  fun_induction decode written with
  | case1 | case2 | case5 => rfl
  | case3 unit hplain =>
    rw [List.flatMap_singleton, encodeChar_unit (h unit List.mem_cons_self) hplain,
      List.append_nil]
  | case4 unit next rest hpair ih =>
    obtain ⟨-, hmore⟩ := List.forall_mem_cons.mp h
    obtain ⟨-, hrest⟩ := List.forall_mem_cons.mp hmore
    rw [Decoded.cons, List.flatMap_cons, encodeChar_pair hpair, List.append_assoc, ih hrest]
    rfl
  | case6 unit next rest _ hplain ih =>
    obtain ⟨hunit, hmore⟩ := List.forall_mem_cons.mp h
    rw [Decoded.cons, List.flatMap_cons, encodeChar_unit hunit hplain, List.append_assoc, ih hmore]
    rfl

theorem exists_units_eq_cons (order : ByteOrder) (first second : UInt8) (rest : Bytes) :
    ∃ unit < 0x10000, unitBytes order unit = [first, second]
      ∧ units order (first :: second :: rest) = unit :: units order rest := by
  have hfirst := first.toNat_lt
  have hsecond := second.toNat_lt
  rcases order with - | -
  · refine ⟨first.toNat + 0x100 * second.toNat, by omega, ?_, rfl⟩
    have hlow : (first.toNat + 0x100 * second.toNat) % 0x100 = first.toNat := by omega
    have hhigh : (first.toNat + 0x100 * second.toNat) / 0x100 = second.toNat := by omega
    rw [unitBytes, hlow, hhigh, UInt8.ofNat_toNat, UInt8.ofNat_toNat]
  · refine ⟨0x100 * first.toNat + second.toNat, by omega, ?_, rfl⟩
    have hlow : (0x100 * first.toNat + second.toNat) % 0x100 = second.toNat := by omega
    have hhigh : (0x100 * first.toNat + second.toNat) / 0x100 = first.toNat := by omega
    rw [unitBytes, hlow, hhigh, UInt8.ofNat_toNat, UInt8.ofNat_toNat]

theorem lt_of_mem_units {order : ByteOrder} {bytes : Bytes} {unit : Nat}
    (h : unit ∈ units order bytes) : unit < 0x10000 := by
  induction bytes using List.twoStepInduction with
  | nil => exact absurd h List.not_mem_nil
  | singleton first => exact absurd h List.not_mem_nil
  | cons_cons first second rest ih _ =>
    obtain ⟨head, hhead, -, hunits⟩ := exists_units_eq_cons order first second rest
    rw [hunits, List.mem_cons] at h
    rcases h with rfl | hmem
    · exact hhead
    · exact ih hmem

theorem exists_flatMap_units_append (order : ByteOrder) (bytes : Bytes) :
    ∃ odd : Bytes, (units order bytes).flatMap (unitBytes order) ++ odd = bytes
      ∧ odd.length = bytes.length % 2 := by
  induction bytes using List.twoStepInduction with
  | nil => exact ⟨[], rfl, rfl⟩
  | singleton last => exact ⟨[last], rfl, rfl⟩
  | cons_cons first second rest ih _ =>
    obtain ⟨unit, -, hbytes, hunits⟩ := exists_units_eq_cons order first second rest
    obtain ⟨odd, hodd, hlength⟩ := ih
    refine ⟨odd, ?_, ?_⟩
    · rw [hunits, List.flatMap_cons, hbytes, List.append_assoc, hodd]
      rfl
    · rw [hlength, List.length_cons, List.length_cons]
      omega

theorem exists_encode_decode_append (order : ByteOrder) (bytes : Bytes) :
    ∃ odd : Bytes, encode order (decode (units order bytes)).text
        ++ ((decode (units order bytes)).rest.flatMap (unitBytes order) ++ odd) = bytes
      ∧ odd.length = bytes.length % 2 := by
  obtain ⟨odd, hodd, hlength⟩ := exists_flatMap_units_append order bytes
  refine ⟨odd, ?_, hlength⟩
  rw [← List.append_assoc, encode, ← List.flatMap_append,
    flatMap_encodeChar_decode_append fun unit ↦ lt_of_mem_units, hodd]

theorem encode_append (order : ByteOrder) (s t : Text) :
    encode order (s ++ t) = encode order s ++ encode order t := by
  rw [encode, List.flatMap_append, List.flatMap_append]
  rfl

/-- **Decoding stops where the longest text ends.** -/
theorem isLongestFront_decode (order : ByteOrder) (bytes : Bytes) :
    IsLongestFront (encode order) bytes (decode (units order bytes)).text := by
  obtain ⟨odd, hbytes, -⟩ := exists_encode_decode_append order bytes
  refine ⟨⟨_, hbytes⟩, ?_⟩
  rintro other ⟨rest, rfl⟩
  rw [units_encode_append, decode_flatMap_encodeChar_append, encode_append, List.length_append]
  exact Nat.le_add_right _ _

end Utf16

end CommentBlocks
