import CommentBlocks.Proofs.EncodedFiles
import CommentBlocks.Proofs.LongestFronts

/-!
# Where UTF-16 stops

UTF-16 that is not well-formed is refused, with the offset of the first byte that cannot be read,
and nothing else is refused.

A surrogate may be alone, the two of a pair may be swapped, the second may be cut off, and a byte
may be left over, behind a surrogate or not. Decoding looks for the surrogate among the units, and
for the byte only afterwards; the offset of the one is counted, that of the other is one less than
the length. What decides all these cases at once is the longest text that the bytes begin with: both
offsets are where it ends, and no fault is left when it is all of the bytes
(`exists_decode_utf16_eq`).

In a file the bytes stand behind a mark, if there is one. Nothing else is ever dropped from the
front of a file, and the mark always is (`byteOrderMark?_of_choose`), so offsets that are raised by
what was dropped are offsets in the file.
-/

namespace CommentBlocks

theorem Utf8.encode_injective : Function.Injective encode := by
  intro s t h
  have hread := congrArg (fun bytes ↦ (decode bytes).text) h
  simpa only [decode_encode] using hread

namespace Encoding

/-! ## UTF-16 in either order -/

/-- UTF-16 in a byte order. -/
def utf16 : Utf16.ByteOrder → Encoding
  | .little => utf16le
  | .big => utf16be

variable (order : Utf16.ByteOrder) (bytes : Bytes)

theorem encode_utf16 : (utf16 order).encode = Utf16.encode order := by
  funext text
  cases order <;> rfl

theorem decode_utf16 : (utf16 order).decode bytes = decodeUtf16 (utf16 order) order bytes := by
  cases order <;> rfl

/-- **Decoding is a matter of the longest front**: it is what is decoded if it is all there is, and
otherwise the fault is where it ends. -/
theorem exists_decode_utf16_eq :
    ∃ text, IsLongestFront (utf16 order).encode bytes text ∧ (utf16 order).decode bytes
      = if (utf16 order).encode text = bytes then .ok (Utf8.encode text)
        else .error (.malformed (utf16 order) ((utf16 order).encode text).length) := by
  obtain ⟨odd, hbytes, hodd⟩ := Utf16.exists_encode_decode_append order bytes
  have hfront := Utf16.isLongestFront_decode order bytes
  rw [encode_utf16, decode_utf16, decodeUtf16]
  generalize Utf16.decode (Utf16.units order bytes) = decoded at hbytes hfront ⊢
  refine ⟨decoded.text, hfront, ?_⟩
  have hlength := congrArg List.length hbytes
  rw [List.length_append, List.length_append, Utf16.length_flatMap_unitBytes, hodd] at hlength
  -- units are left, or a byte is, or nothing is
  by_cases hrest : decoded.rest = []
  · rw [hrest, List.length_nil] at hlength
    rw [hrest]
    by_cases heven : bytes.length % 2 = 0
    · have heq := hfront.isPrefix.eq_of_length (by omega)
      rw [if_pos heq]
      exact if_neg (not_not.mpr heven)
    · have hne : Utf16.encode order decoded.text ≠ bytes := by
        intro heq
        rw [heq] at hlength
        omega
      have hlast : bytes.length - 1 = (Utf16.encode order decoded.text).length := by
        omega
      rw [if_neg hne, ← hlast]
      exact if_pos heven
  · have hpos := List.length_pos_iff.mpr hrest
    have hne : Utf16.encode order decoded.text ≠ bytes := by
      intro heq
      rw [heq] at hlength
      omega
    have hsome : (!decoded.rest.isEmpty) = true := by
      rw [Bool.not_eq_true', List.isEmpty_eq_false_iff]
      exact hrest
    rw [if_neg hne, Utf16.length_encode]
    exact if_pos hsome

theorem exists_malformed_of_forall_ne (h : ∀ text, bytes ≠ (utf16 order).encode text) :
    ∃ front, IsLongestFront (utf16 order).encode bytes front
      ∧ (utf16 order).decode bytes
        = .error (.malformed (utf16 order) ((utf16 order).encode front).length)
      ∧ ((utf16 order).encode front).length < bytes.length := by
  obtain ⟨front, hfront, hresult⟩ := exists_decode_utf16_eq order bytes
  have hne := (h front).symm
  rw [if_neg hne] at hresult
  refine ⟨front, hfront, hresult, ?_⟩
  exact Nat.lt_of_le_of_ne hfront.isPrefix.length_le (mt hfront.isPrefix.eq_of_length hne)

theorem decode_utf16_eq_ok_iff {read : Bytes} :
    (utf16 order).decode bytes = .ok read
      ↔ ∃ text, bytes = (utf16 order).encode text ∧ read = Utf8.encode text := by
  obtain ⟨front, hfront, hresult⟩ := exists_decode_utf16_eq order bytes
  constructor
  · intro hread
    rw [hresult] at hread
    split at hread
    · next heq => exact ⟨front, heq.symm, (Except.ok.inj hread).symm⟩
    · cases hread
  · rintro ⟨text, rfl, rfl⟩
    apply decode_encode_eq_ok
    intro hlatin1
    cases order <;> cases hlatin1

/-! ## Files -/

theorem sniff?_of_choose {bytes : Bytes} {label : Option String} {encoding : Encoding}
    {dropped : Nat} (h : choose bytes label = .ok (encoding, dropped)) :
    sniff? bytes = some (encoding, dropped)
      ∨ dropped = 0 ∧ ∀ length, sniff? bytes ≠ some (encoding, length) := by
  rcases label with - | label
  · rw [choose, Except.ok.injEq] at h
    rcases hfound : sniff? bytes with - | found
    · rw [hfound, Option.getD_none, Prod.mk.injEq] at h
      refine Or.inr ⟨h.2.symm, ?_⟩
      rintro _ ⟨⟩
    · rw [hfound, Option.getD_some] at h
      exact Or.inl (congrArg some h)
  · rw [choose] at h
    rcases hlabel : ofLabel? label with - | named
    · rw [hlabel] at h
      cases h
    · rcases hfound : sniff? bytes with - | ⟨found, length⟩
      · rw [hlabel, hfound, Except.ok.injEq, Prod.mk.injEq] at h
        refine Or.inr ⟨h.2.symm, ?_⟩
        rintro _ ⟨⟩
      · -- a mark that does not belong to the label's encoding is content
        rw [hlabel, hfound, Except.ok.injEq, Prod.mk.injEq] at h
        obtain ⟨rfl, rfl⟩ := h
        by_cases heq : found = named
        · rw [if_pos heq, heq]
          exact Or.inl rfl
        · refine Or.inr ⟨if_neg heq, ?_⟩
          rintro _ ⟨⟩
          exact heq rfl

/-- **The mark of the encoding is dropped, and nothing else.** -/
theorem byteOrderMark?_of_choose {bytes : Bytes} {label : Option String} {encoding : Encoding}
    {dropped : Nat} (h : choose bytes label = .ok (encoding, dropped)) :
    encoding.byteOrderMark? = some (bytes.take dropped)
      ∨ dropped = 0 ∧ ∀ mark ∈ encoding.byteOrderMark?, ¬mark <+: bytes := by
  rcases sniff?_of_choose h with hfound | ⟨hzero, hnone⟩
  · exact Or.inl (byteOrderMark?_of_sniff? hfound)
  · refine Or.inr ⟨hzero, ?_⟩
    rintro mark hmark ⟨rest, rfl⟩
    exact hnone _ (sniff?_append hmark rest)

/-- **UTF-16 is read as it is written, and in no other way.** What decodes is what encodes a text,
and it decodes to that text, so no two byte strings decode to one. What does not is malformed where
the longest text that it begins with ends. A file in UTF-16 loses its mark, if it has one, and the
offset of a fault in it counts from its first byte. -/
theorem utf16_reads_what_it_writes (order : Utf16.ByteOrder) (bytes : Bytes) :
    let encoding := utf16 order
    (∀ read, encoding.decode bytes = .ok read
        ↔ ∃ text, bytes = encoding.encode text ∧ read = Utf8.encode text)
      ∧ (∀ other read, encoding.decode bytes = .ok read → encoding.decode other = .ok read →
        other = bytes)
      ∧ ((∀ text, bytes ≠ encoding.encode text) →
        ∃ front, IsLongestFront encoding.encode bytes front
          ∧ encoding.decode bytes = .error (.malformed encoding (encoding.encode front).length))
      ∧ ∀ label dropped, choose bytes label = .ok (encoding, dropped) →
        (encoding.byteOrderMark? = some (bytes.take dropped)
          ∨ dropped = 0 ∧ ∀ mark ∈ encoding.byteOrderMark?, ¬mark <+: bytes)
        ∧ ((∀ text, bytes.drop dropped ≠ encoding.encode text) →
          ∃ front, IsLongestFront encoding.encode (bytes.drop dropped) front
            ∧ decodeFile bytes label
              = .error (.malformed encoding ((encoding.encode front).length + dropped))
            ∧ (encoding.encode front).length + dropped < bytes.length) := by
  refine ⟨fun read ↦ decode_utf16_eq_ok_iff order bytes, ?_, ?_, ?_⟩
  · intro other read hbytes hother
    obtain ⟨text, rfl, rfl⟩ := (decode_utf16_eq_ok_iff order bytes).mp hbytes
    obtain ⟨text', rfl, hread⟩ := (decode_utf16_eq_ok_iff order other).mp hother
    rw [Utf8.encode_injective hread]
  · intro hne
    obtain ⟨front, hfront, hresult, -⟩ := exists_malformed_of_forall_ne order bytes hne
    exact ⟨front, hfront, hresult⟩
  · intro label dropped hchoose
    refine ⟨byteOrderMark?_of_choose hchoose, ?_⟩
    intro hne
    obtain ⟨front, hfront, hresult, hlt⟩ := exists_malformed_of_forall_ne order _ hne
    refine ⟨front, hfront, ?_, ?_⟩
    · rw [decodeFile, hchoose]
      dsimp only
      rw [hresult]
      rfl
    · rw [List.length_drop] at hlt
      omega

/-- Behind a mark, a letter, the second half of a pair cut from the first, and a byte too many. -/
theorem utf16_reads_up_to_lone_surrogate :
    let bytes : Bytes := [0xFE, 0xFF, 0x00, 0x61, 0xDC, 0x00, 0xD8, 0x3D, 0x20]
    ∃ front, IsLongestFront utf16be.encode (bytes.drop 2) front
      ∧ decodeFile bytes (some "UTF-16BE")
        = .error (.malformed utf16be ((utf16be.encode front).length + 2))
      ∧ (utf16be.encode front).length = 2 := by
  intro bytes
  have hchoose : choose bytes (some "UTF-16BE") = .ok (utf16be, 2) := by
    decide +kernel +zetaReduce
  have hresult : decodeFile bytes (some "UTF-16BE") = .error (.malformed utf16be 4) := by
    decide +kernel +zetaReduce
  have hdecode : utf16be.decode (bytes.drop 2) = .error (.malformed utf16be 2) := by
    decide +kernel +zetaReduce
  have hne : ∀ text, bytes.drop 2 ≠ utf16be.encode text := by
    intro text htext
    have hread := ((utf16_reads_what_it_writes .big (bytes.drop 2)).1 _).mpr ⟨text, htext, rfl⟩
    cases hdecode.symm.trans hread
  obtain ⟨-, hfault⟩ := (utf16_reads_what_it_writes .big bytes).2.2.2 _ _ hchoose
  obtain ⟨front, hfront, hfile, -⟩ := hfault hne
  refine ⟨front, hfront, hfile, ?_⟩
  rw [hresult, Except.error.injEq, DecodeError.malformed.injEq] at hfile
  have hoffset : 2 + 2 = (utf16be.encode front).length + 2 := hfile.2
  omega

end Encoding

end CommentBlocks
