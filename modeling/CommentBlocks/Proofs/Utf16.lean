import CommentBlocks.Text.Utf16
import Mathlib.Data.List.Basic

/-!
# UTF-16 as a code

What is written in UTF-16 is read back, in either byte order and whatever follows it
(`units_encode_append`, `decode_flatMap_encodeChar_append`). There are two layers to go through.
Bytes are paired into units, which is a matter of division by 256; and units are paired into
characters where they are surrogates, which no unit of a character below U+10000 is. The first unit
tells a character apart from the byte-order mark, whose only unit is that of U+FEFF.
-/

namespace CommentBlocks

namespace Utf16

/-! ## Units of a character -/

theorem encodeChar_cases (c : Char) :
    (encodeChar c = [c.toNat] ∧ c.toNat < 0x10000 ∧ (c.toNat < 0xD800 ∨ 0xDFFF < c.toNat))
      ∨ ∃ lead trail, encodeChar c = [lead, trail]
        ∧ 0xD800 ≤ lead ∧ lead < 0xDC00 ∧ 0xDC00 ≤ trail ∧ trail < 0xE000
        ∧ 0x10000 + (lead - 0xD800) * 0x400 + (trail - 0xDC00) = c.toNat := by
  have hrange : c.toNat < 0xD800 ∨ (0xDFFF < c.toNat ∧ c.toNat < 0x110000) := c.valid
  unfold encodeChar
  dsimp only
  split
  · next hsmall => exact Or.inl ⟨rfl, hsmall, by omega⟩
  · refine Or.inr ⟨_, _, rfl, ?_⟩
    omega

theorem lt_of_mem_encodeChar {c : Char} {unit : Nat} (h : unit ∈ encodeChar c) :
    unit < 0x10000 := by
  rcases encodeChar_cases c with ⟨hone, hsmall, -⟩ | ⟨lead, trail, htwo, -, hlead, -, htrail, -⟩
  · rw [hone, List.mem_singleton] at h
    omega
  · rw [htwo, List.mem_cons, List.mem_singleton] at h
    omega

theorem eq_of_encodeChar_eq_cons {c : Char} {units : List Nat}
    (h : encodeChar c = 0xFEFF :: units) : c = '\uFEFF' := by
  rcases encodeChar_cases c with ⟨hone, -⟩ | ⟨lead, trail, htwo, -, hlead, -⟩
  · rw [hone, List.cons.injEq] at h
    rw [← Char.ofNat_toNat c, h.1]
  · -- a lead lies below the mark
    rw [htwo, List.cons.injEq] at h
    omega

/-! ## Bytes and units -/

theorem units_unitBytes_append (order : ByteOrder) {unit : Nat} (h : unit < 0x10000)
    (rest : Bytes) : units order (unitBytes order unit ++ rest) = unit :: units order rest := by
  have hlow : (UInt8.ofNat (unit % 0x100)).toNat = unit % 0x100 :=
    UInt8.toNat_ofNat_of_lt' (Nat.mod_lt _ (by decide))
  have hhigh : (UInt8.ofNat (unit / 0x100)).toNat = unit / 0x100 :=
    UInt8.toNat_ofNat_of_lt' (by
      change unit / 0x100 < 256
      omega)
  cases order with
  | little =>
    have hunit : unit % 0x100 + 0x100 * (unit / 0x100) = unit := Nat.mod_add_div _ _
    simp only [unitBytes, List.cons_append, List.nil_append, units, hlow, hhigh, hunit]
  | big =>
    have hunit : 0x100 * (unit / 0x100) + unit % 0x100 = unit := Nat.div_add_mod _ _
    simp only [unitBytes, List.cons_append, List.nil_append, units, hlow, hhigh, hunit]

theorem units_flatMap_unitBytes_append (order : ByteOrder) {written : List Nat}
    (h : ∀ unit ∈ written, unit < 0x10000) (rest : Bytes) :
    units order (written.flatMap (unitBytes order) ++ rest) = written ++ units order rest := by
  induction written with
  | nil => rfl
  | cons unit written ih =>
    obtain ⟨hunit, hwritten⟩ := List.forall_mem_cons.mp h
    rw [List.flatMap_cons, List.append_assoc, units_unitBytes_append order hunit, ih hwritten,
      List.cons_append]

/-- **The units of a text are read back from its bytes**, whatever bytes follow them. -/
theorem units_encode_append (order : ByteOrder) (text : Text) (rest : Bytes) :
    units order (encode order text ++ rest) = text.flatMap encodeChar ++ units order rest := by
  apply units_flatMap_unitBytes_append
  intro unit hunit
  obtain ⟨c, -, hc⟩ := List.mem_flatMap.mp hunit
  exact lt_of_mem_encodeChar hc

theorem units_encode (order : ByteOrder) (text : Text) :
    units order (encode order text) = text.flatMap encodeChar := by
  have hnil : units order [] = [] := rfl
  rw [← List.append_nil (encode order text), units_encode_append, hnil, List.append_nil]

theorem length_flatMap_unitBytes (order : ByteOrder) (written : List Nat) :
    (written.flatMap (unitBytes order)).length = 2 * written.length := by
  have hpair : ∀ unit, (unitBytes order unit).length = 2 := by
    intro unit
    cases order <;> rfl
  rw [List.length_flatMap]
  simp only [hpair, List.map_const', List.sum_replicate_nat]
  exact Nat.mul_comm _ _

theorem length_encode (order : ByteOrder) (text : Text) :
    (encode order text).length = byteLength text :=
  length_flatMap_unitBytes order _

theorem length_encode_mod_two (order : ByteOrder) (text : Text) :
    (encode order text).length % 2 = 0 := by
  rw [length_encode]
  exact Nat.mul_mod_right 2 _

/-! ## Units and characters -/

theorem decode_encodeChar_append (c : Char) (rest : List Nat) :
    decode (encodeChar c ++ rest) = (decode rest).cons c := by
  rcases encodeChar_cases c with
    ⟨hone, -, hplain⟩ | ⟨lead, trail, htwo, hlead, hlead', htrail, htrail', hvalue⟩
  · have hlead : isLead c.toNat = false := by
      rw [isLead, Bool.and_eq_false_iff, decide_eq_false_iff_not, decide_eq_false_iff_not]
      omega
    have htrail : isTrail c.toNat = false := by
      rw [isTrail, Bool.and_eq_false_iff, decide_eq_false_iff_not, decide_eq_false_iff_not]
      omega
    rw [hone]
    cases rest with
    | nil => simp [decode, hlead, htrail, Decoded.cons]
    | cons next rest => simp [decode, hlead, htrail]
  · have hpair : (isLead lead && isTrail trail) = true := by
      simp only [isLead, isTrail, Bool.and_eq_true, decide_eq_true_iff]
      exact ⟨⟨hlead, hlead'⟩, htrail, htrail'⟩
    rw [htwo, List.cons_append, List.singleton_append, decode, if_pos hpair, hvalue,
      Char.ofNat_toNat]

/-- **A text is read back from its units**, whatever units follow them. -/
theorem decode_flatMap_encodeChar_append (text : Text) (rest : List Nat) :
    decode (text.flatMap encodeChar ++ rest)
      = ⟨text ++ (decode rest).text, (decode rest).rest⟩ := by
  induction text with
  | nil => rfl
  | cons c text ih =>
    rw [List.flatMap_cons, List.append_assoc, decode_encodeChar_append, ih, Decoded.cons,
      List.cons_append]

theorem decode_flatMap_encodeChar (text : Text) :
    decode (text.flatMap encodeChar) = ⟨text, []⟩ := by
  have hnil : decode [] = ⟨[], []⟩ := rfl
  rw [← List.append_nil (text.flatMap encodeChar), decode_flatMap_encodeChar_append, hnil,
    List.append_nil]

end Utf16

end CommentBlocks
