import CommentBlocks.Proofs.CollectedDiagnostics
import CommentBlocks.Proofs.Utf8
import Mathlib.Data.Char
import Mathlib.Data.List.Lex

/-!
# Bytes in order

Documents are compared by their names, character by character. A reader that knows nothing but the
bytes of the names would put them in the same order, because UTF-8 keeps the order of code points
(`encode_lt_encode_iff`). Lead bytes grow with the width of a character, and within one width the
bits of a code point are laid out from the highest to the lowest, so that the first byte in which
two characters differ tells which is the lesser.
-/

namespace CommentBlocks

namespace Utf8

private theorem byte_cons_lt {m n : Nat} {s t : Bytes} (hn : n < 256) (hle : m ≤ n)
    (htail : m = n → s < t) : UInt8.ofNat m :: s < UInt8.ofNat n :: t := by
  rw [List.cons_lt_cons_iff]
  rcases Nat.lt_or_eq_of_le hle with hlt | rfl
  · refine Or.inl (UInt8.lt_iff_toNat_lt.mpr ?_)
    rw [UInt8.toNat_ofNat_of_lt' hn, UInt8.toNat_ofNat_of_lt' (Nat.lt_trans hlt hn)]
    exact hlt
  · exact Or.inr ⟨rfl, htail rfl⟩

/-- **The lesser of two characters has the lesser bytes**, whatever follows either. -/
theorem encodeChar_append_lt {c d : Char} (h : c < d) (s t : Bytes) :
    encodeChar c ++ s < encodeChar d ++ t := by
  have hlt : c.toNat < d.toNat := h
  have hrange := toNat_range d
  unfold encodeChar
  dsimp only
  -- by the width of `c`; a wider `d` has a greater lead, a narrower one is not greater than `c`
  split
  · split_ifs <;> exact byte_cons_lt (by omega) (by omega) fun hlead ↦ absurd hlead (by omega)
  split
  · split_ifs
    · omega
    · refine byte_cons_lt (by omega) (by omega) fun hlead ↦ ?_
      exact byte_cons_lt (by omega) (by omega) fun hlast ↦ absurd hlast (by omega)
    all_goals exact byte_cons_lt (by omega) (by omega) fun hlead ↦ absurd hlead (by omega)
  split
  · split_ifs
    · omega
    · omega
    · refine byte_cons_lt (by omega) (by omega) fun hlead ↦ ?_
      refine byte_cons_lt (by omega) (by omega) fun hsecond ↦ ?_
      exact byte_cons_lt (by omega) (by omega) fun hlast ↦ absurd hlast (by omega)
    · exact byte_cons_lt (by omega) (by omega) fun hlead ↦ absurd hlead (by omega)
  · split_ifs
    · omega
    · omega
    · omega
    · refine byte_cons_lt (by omega) (by omega) fun hlead ↦ ?_
      refine byte_cons_lt (by omega) (by omega) fun hsecond ↦ ?_
      refine byte_cons_lt (by omega) (by omega) fun hthird ↦ ?_
      exact byte_cons_lt (by omega) (by omega) fun hlast ↦ absurd hlast (by omega)

theorem encode_lt_encode {s t : Text} (h : s < t) : encode s < encode t := by
  induction s generalizing t with
  | nil =>
    rcases t with - | ⟨d, t⟩
    · exact absurd h (List.lt_irrefl _)
    · obtain ⟨lead, tail, hd, -⟩ := exists_encodeChar_eq_cons d
      rw [encode_cons, hd]
      exact List.nil_lt_cons _ _
  | cons c s ih =>
    rcases t with - | ⟨d, t⟩
    · exact absurd h (List.not_lt_nil _)
    · rw [encode_cons, encode_cons]
      rcases List.cons_lt_cons_iff.mp h with hlt | ⟨rfl, hlt⟩
      · exact encodeChar_append_lt hlt _ _
      · exact List.append_left_lt (ih hlt)

/-- **UTF-8 keeps the order of texts.** -/
theorem encode_lt_encode_iff {s t : Text} : encode s < encode t ↔ s < t := by
  refine ⟨?_, encode_lt_encode⟩
  intro h
  rcases lt_trichotomy s t with hlt | rfl | hgt
  · exact hlt
  · exact absurd h (List.lt_irrefl _)
  · exact absurd h (List.lt_asymm (encode_lt_encode hgt))

end Utf8

/-! ## Documents -/

def Origin.bytes (origin : Origin) : Bytes := Utf8.encode origin.name.toList

theorem Origin.compare_eq_lt_iff {a b : Origin} : compare a b = .lt ↔ a.bytes < b.bytes := by
  have hcompare : compare a b = compareOfLessAndEq a.name b.name := rfl
  rw [hcompare, compareOfLessAndEq_eq_lt, String.lt_iff, Origin.bytes, Origin.bytes,
    Utf8.encode_lt_encode_iff]

end CommentBlocks
