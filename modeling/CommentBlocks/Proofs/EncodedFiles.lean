import CommentBlocks.Extract.File
import CommentBlocks.Proofs.ResumedScan
import CommentBlocks.Proofs.Utf16

/-!
# One text, many files

The same text can be stored in several encodings, with or without a byte-order mark and with or
without a label that names the encoding. `Represents` lists the files that stand for a text without
ambiguity, and all of them are extracted alike: decoding gives back the text, and what follows
depends on the text alone.

Three things could go wrong, and each has its lemma.

* Bytes at the front could be taken for the mark of the encoding when they are content. The mark is
  U+FEFF as the encoding writes it (`eq_encode_of_byteOrderMark?`), so this happens to no text that
  begins otherwise (`head?_eq_of_byteOrderMark?`).
* Bytes at the front could be taken for the mark of another encoding. Under a label they are not,
  and without a label no UTF-8 begins like one (`sniff?_encode_utf8`).
* Decoding could lose something (`decode_encode_eq_ok`).
-/

namespace CommentBlocks

/-- The character that a byte-order mark is. -/
def markChar : Char := '\uFEFF'

namespace Encoding

/-! ## Writing a text -/

/-- The bytes of a text in an encoding, without a mark. -/
def encode : Encoding → Text → Bytes
  | utf8, text => Utf8.encode text
  | utf16le, text => Utf16.encode .little text
  | utf16be, text => Utf16.encode .big text
  | latin1, text => text.map fun c ↦ UInt8.ofNat c.toNat

/-- Whether the encoding has all the characters of a text. -/
def Covers (encoding : Encoding) (text : Text) : Prop :=
  encoding = latin1 → ∀ c ∈ text, c.toNat ≤ 0xFF

theorem covers_of_byteOrderMark? {encoding : Encoding} {mark : Bytes}
    (h : encoding.byteOrderMark? = some mark) (text : Text) : encoding.Covers text := by
  rintro rfl
  simp [byteOrderMark?] at h

theorem decodeUtf16_encode (encoding : Encoding) (order : Utf16.ByteOrder) (text : Text) :
    decodeUtf16 encoding order (Utf16.encode order text) = .ok (Utf8.encode text) := by
  rw [decodeUtf16, Utf16.units_encode, Utf16.decode_flatMap_encodeChar,
    Utf16.length_encode_mod_two]
  rfl

theorem latin1Text_encode {text : Text} (h : ∀ c ∈ text, c.toNat ≤ 0xFF) :
    latin1Text (latin1.encode text) = text := by
  rw [latin1Text, encode, List.map_map]
  refine (List.map_congr_left ?_).trans (List.map_id text)
  intro c hc
  have hbyte : (UInt8.ofNat c.toNat).toNat = c.toNat :=
    UInt8.toNat_ofNat_of_lt' (Nat.lt_succ_of_le (h c hc))
  rw [Function.comp_apply, hbyte, Char.ofNat_toNat, id]

theorem encodeChar_ofNat_of_ascii {b : UInt8} (h : b.toNat < 0x80) :
    Utf8.encodeChar (Char.ofNat b.toNat) = [b] := by
  have hcode : (Char.ofNat b.toNat).toNat = b.toNat :=
    toNat_ofNat_of_isValidChar (Or.inl (Nat.lt_trans h (by decide)))
  rw [Utf8.encodeChar, hcode, if_pos h, UInt8.ofNat_toNat]

/-- **ASCII is its own UTF-8.** -/
theorem encode_latin1Text_of_ascii {bytes : Bytes} (h : ∀ b ∈ bytes, b.toNat < 0x80) :
    Utf8.encode (latin1Text bytes) = bytes := by
  induction bytes with
  | nil => rfl
  | cons b bytes ih =>
    have hfirst := encodeChar_ofNat_of_ascii (h b List.mem_cons_self)
    have hothers := ih fun other hother ↦ h other (List.mem_cons_of_mem b hother)
    exact congr (congrArg List.append hfirst) hothers

theorem decodeLatin1_eq (bytes : Bytes) :
    decodeLatin1 bytes = Utf8.encode (latin1Text bytes) := by
  rw [decodeLatin1]
  split
  · next hascii =>
    refine (encode_latin1Text_of_ascii fun b hb ↦ ?_).symm
    exact of_decide_eq_true (List.all_eq_true.mp hascii b hb)
  · rfl

/-- **What an encoding writes it reads**, and makes UTF-8 of it. -/
theorem decode_encode_eq_ok {encoding : Encoding} {text : Text} (h : encoding.Covers text) :
    encoding.decode (encoding.encode text) = .ok (Utf8.encode text) := by
  cases encoding with
  | utf8 => rfl
  | utf16le => exact decodeUtf16_encode _ _ _
  | utf16be => exact decodeUtf16_encode _ _ _
  | latin1 =>
    rw [decode, decodeLatin1_eq, latin1Text_encode (h rfl)]

/-! ## Marks -/

theorem eq_encode_of_byteOrderMark? {encoding : Encoding} {mark : Bytes}
    (h : encoding.byteOrderMark? = some mark) : mark = encoding.encode [markChar] := by
  cases encoding <;> cases h <;> decide

theorem head?_eq_of_prefix_utf16 {order : Utf16.ByteOrder} {text : Text}
    (h : Utf16.encode order [markChar] <+: Utf16.encode order text) :
    text.head? = some markChar := by
  obtain ⟨rest, hrest⟩ := h
  have hunits := congrArg (Utf16.units order) hrest
  have hmark : Utf16.encode order [markChar] = Utf16.unitBytes order 0xFEFF := by
    cases order <;> decide
  rw [hmark, Utf16.units_unitBytes_append order (by decide), Utf16.units_encode] at hunits
  cases text with
  | nil => simp at hunits
  | cons c text =>
    rw [List.flatMap_cons] at hunits
    rcases List.cons_eq_append_iff.mp hunits with ⟨hnil, -⟩ | ⟨units, hc, -⟩
    · rcases Utf16.encodeChar_cases c with ⟨hone, -⟩ | ⟨lead, trail, htwo, -⟩
      · simp [hone] at hnil
      · simp [htwo] at hnil
    · exact congrArg some (Utf16.eq_of_encodeChar_eq_cons hc)

theorem head?_eq_of_byteOrderMark? {encoding : Encoding} {mark : Bytes} {text : Text}
    (h : encoding.byteOrderMark? = some mark) (hbytes : mark <+: encoding.encode text) :
    text.head? = some markChar := by
  rw [eq_encode_of_byteOrderMark? h] at hbytes
  cases encoding with
  | utf8 =>
    obtain ⟨rest, rfl⟩ := Utf8.encode_prefix_encode_iff.mp hbytes
    rfl
  | utf16le => exact head?_eq_of_prefix_utf16 hbytes
  | utf16be => exact head?_eq_of_prefix_utf16 hbytes
  | latin1 => simp [byteOrderMark?] at h

theorem byteOrderMark?_of_sniff? {bytes : Bytes} {encoding : Encoding} {length : Nat}
    (h : sniff? bytes = some (encoding, length)) :
    encoding.byteOrderMark? = some (bytes.take length) := by
  obtain ⟨found, -, hfound⟩ := List.exists_of_findSome?_eq_some h
  obtain ⟨mark, hmark, hsniffed⟩ := Option.bind_eq_some_iff.mp hfound
  rw [Option.ite_none_right_eq_some, Option.some.injEq, Prod.mk.injEq] at hsniffed
  obtain ⟨hbegin, rfl, rfl⟩ := hsniffed
  rw [hmark, ← List.prefix_iff_eq_take.mp (List.isPrefixOf_iff_prefix.mp hbegin)]

theorem sniff?_eq_some {bytes : Bytes} {encoding : Encoding} {length : Nat}
    (h : sniff? bytes = some (encoding, length)) :
    ∃ mark, encoding.byteOrderMark? = some mark ∧ mark <+: bytes :=
  ⟨_, byteOrderMark?_of_sniff? h, List.take_prefix _ _⟩

theorem sniff?_append {encoding : Encoding} {mark : Bytes}
    (h : encoding.byteOrderMark? = some mark) (bytes : Bytes) :
    sniff? (mark ++ bytes) = some (encoding, mark.length) := by
  cases encoding <;> cases h <;> rfl

/-- Content is not taken for the mark of its own encoding. -/
theorem sniff?_encode_ne {encoding : Encoding} {text : Text} (h : text.head? ≠ some markChar)
    (length : Nat) : sniff? (encoding.encode text) ≠ some (encoding, length) := by
  intro hsniff
  obtain ⟨mark, hmark, hbegin⟩ := sniff?_eq_some hsniff
  exact h (head?_eq_of_byteOrderMark? hmark hbegin)

/-- No UTF-8 begins with a byte that begins a mark of UTF-16. -/
theorem encode_utf8_ne {lead : UInt8} (hlead : Utf8.width lead = 0) (text : Text) (rest : Bytes) :
    Utf8.encode text ≠ lead :: rest := by
  intro heq
  cases text with
  | nil => simp at heq
  | cons c text =>
    have hread := Utf8.decodeChar?_encodeChar_append c (Utf8.encode text)
    rw [← Utf8.encode_cons, heq] at hread
    simp [Utf8.decodeChar?, hlead] at hread

theorem sniff?_encode_utf8 {text : Text} (h : text.head? ≠ some markChar) :
    sniff? (Utf8.encode text) = none := by
  apply Option.eq_none_iff_forall_ne_some.mpr
  rintro ⟨encoding, length⟩ hsniff
  obtain ⟨mark, hmark, rest, hrest⟩ := sniff?_eq_some hsniff
  cases encoding with
  | utf8 => exact h (head?_eq_of_byteOrderMark? hmark ⟨rest, hrest⟩)
  | utf16le =>
    cases hmark
    exact encode_utf8_ne (by decide) text _ hrest.symm
  | utf16be =>
    cases hmark
    exact encode_utf8_ne (by decide) text _ hrest.symm
  | latin1 => simp [byteOrderMark?] at hmark

/-! ## Labels -/

/-- The label names the encoding, apart from white space around it and the case of its letters. -/
def IsNamedBy (encoding : Encoding) (label : String) : Prop :=
  (String.ofList (Text.trim label.toList)).toLower ∈ encoding.labels

instance (encoding : Encoding) (label : String) : Decidable (encoding.IsNamedBy label) :=
  inferInstanceAs (Decidable (_ ∈ encoding.labels))

theorem eq_of_mem_labels {encoding other : Encoding} {word : String}
    (h : word ∈ encoding.labels) (hother : word ∈ other.labels) : encoding = other := by
  have hdisjoint : ∀ e ∈ all, ∀ word ∈ e.labels, ∀ e' ∈ all, word ∈ e'.labels → e = e' := by
    decide
  have hall : ∀ e : Encoding, e ∈ all := by
    intro e
    cases e <;> decide
  exact hdisjoint encoding (hall _) word h other (hall _) hother

theorem ofLabel?_of_isNamedBy {encoding : Encoding} {label : String}
    (h : encoding.IsNamedBy label) : ofLabel? label = some encoding := by
  cases hfound : ofLabel? label with
  | none =>
    have hnone := List.find?_eq_none.mp hfound encoding (by cases encoding <;> decide)
    exact absurd (decide_eq_true h) hnone
  | some other =>
    have hother := List.find?_some hfound
    rw [eq_of_mem_labels h (of_decide_eq_true hother)]

/-! ## Choosing an encoding -/

theorem choose_of_mark {encoding : Encoding} {mark : Bytes} {label : Option String}
    (h : encoding.byteOrderMark? = some mark) (hlabel : ∀ name ∈ label, encoding.IsNamedBy name)
    (bytes : Bytes) : choose (mark ++ bytes) label = .ok (encoding, mark.length) := by
  cases label with
  | none => rw [choose, sniff?_append h, Option.getD_some]
  | some name =>
    rw [choose, ofLabel?_of_isNamedBy (hlabel name rfl), sniff?_append h]
    exact congrArg (fun length ↦ Except.ok (encoding, length)) (if_pos rfl)

theorem choose_of_label {encoding : Encoding} {label : String} {bytes : Bytes}
    (h : encoding.IsNamedBy label) (hmark : ∀ length, sniff? bytes ≠ some (encoding, length)) :
    choose bytes (some label) = .ok (encoding, 0) := by
  rw [choose, ofLabel?_of_isNamedBy h]
  dsimp only
  split
  · next sniffed length hsniff =>
    have hne : sniffed ≠ encoding := by
      rintro rfl
      exact hmark length hsniff
    rw [if_neg hne]
  · rfl

theorem choose_utf8 {text : Text} (h : text.head? ≠ some markChar) :
    choose (Utf8.encode text) none = .ok (utf8, 0) := by
  rw [choose, sniff?_encode_utf8 h, Option.getD_none]

end Encoding

/-! ## Files -/

/-- The files that stand for a text: their bytes, the label they come with, and the encoding that
both are meant in. -/
inductive Represents (text : Text) : Bytes → Option String → Encoding → Prop where
  /-- Behind the mark of the encoding, with a label of that encoding or none. -/
  | marked {encoding : Encoding} {mark : Bytes} {label : Option String} :
    encoding.byteOrderMark? = some mark → (∀ name ∈ label, encoding.IsNamedBy name) →
      Represents text (mark ++ encoding.encode text) label encoding
  /-- Without a mark, under a label of a Unicode encoding. The text does not begin with the mark
  itself, which would be taken for one. -/
  | labelled {encoding : Encoding} {label : String} :
    encoding ≠ .latin1 → text.head? ≠ some markChar → encoding.IsNamedBy label →
      Represents text (encoding.encode text) label encoding
  /-- In UTF-8, with neither mark nor label. -/
  | plain : text.head? ≠ some markChar → Represents text (Utf8.encode text) none .utf8
  /-- In Latin-1, under a label of it. -/
  | latin1 {label : String} : (∀ c ∈ text, c.toNat ≤ 0xFF) → Encoding.latin1.IsNamedBy label →
      Represents text (Encoding.latin1.encode text) label .latin1

theorem decodeFile_of_choose {encoding : Encoding} {bytes : Bytes} {label : Option String}
    {text : Text} {mark : Nat} (hchoose : Encoding.choose bytes label = .ok (encoding, mark))
    (hcovers : encoding.Covers text) (hbytes : bytes.drop mark = encoding.encode text) :
    decodeFile bytes label = .ok (encoding, Utf8.encode text) := by
  rw [decodeFile, hchoose]
  dsimp only
  rw [hbytes, Encoding.decode_encode_eq_ok hcovers]

/-- **A file that stands for a text decodes to it.** -/
theorem Represents.decodeFile_eq {text : Text} {bytes : Bytes} {label : Option String}
    {encoding : Encoding} (h : Represents text bytes label encoding) :
    decodeFile bytes label = .ok (encoding, Utf8.encode text) := by
  cases h with
  | marked hmark hlabel =>
    exact decodeFile_of_choose (Encoding.choose_of_mark hmark hlabel _)
      (Encoding.covers_of_byteOrderMark? hmark text) List.drop_left
  | labelled hunicode hfirst hlabel =>
    exact decodeFile_of_choose
      (Encoding.choose_of_label hlabel (Encoding.sniff?_encode_ne hfirst))
      (fun hlatin1 ↦ absurd hlatin1 hunicode) rfl
  | plain hfirst =>
    exact decodeFile_of_choose (Encoding.choose_utf8 hfirst) (fun hlatin1 ↦ by cases hlatin1) rfl
  | latin1 hsmall hlabel =>
    -- Latin-1 has no mark, so none can be found
    have hmark : ∀ length, Encoding.sniff? (Encoding.latin1.encode text)
        ≠ some (Encoding.latin1, length) := by
      intro length hsniff
      obtain ⟨mark, hnone, -⟩ := Encoding.sniff?_eq_some hsniff
      simp [Encoding.byteOrderMark?] at hnone
    exact decodeFile_of_choose (Encoding.choose_of_label hlabel hmark) (fun _ ↦ hsmall) rfl

namespace Extractor

variable (extractor : Extractor)

/-- What comes of a text as a whole document, however it was stored. -/
def extractText (origin : Origin) (language : Option String) (text : Text) : Outcome := do
  let profile ← extractor.resolveLanguage ⟨origin, [], language, none⟩
  let source ← (Source.ofText text origin).mapError .source
  return source.scan profile extractor.config.scan

theorem ofBytes_encode_eq_ofText (text : Text) (origin : Origin) :
    Source.ofBytes (Utf8.encode text) origin .zero = Source.ofText text origin := by
  have hzero : Position.zero.byteOffset + text.byteLength = text.byteLength := Nat.zero_add _
  rw [Source.ofText]
  split
  · next hlarge =>
    rw [Source.ofBytes, Utf8.length_encode, hzero, if_pos hlarge]
  · next hfits =>
    exact Source.ofBytes_encode origin (hzero.symm ▸ Nat.not_lt.mp hfits)

theorem extractFile_of_decodeFile {origin : Origin} {bytes : Bytes} {language label : Option String}
    {encoding : Encoding} {text : Text}
    (h : decodeFile bytes label = .ok (encoding, Utf8.encode text)) :
    extractor.extractFile ⟨origin, bytes, language, label⟩
      = extractor.extractText origin language text := by
  have hdecode : decodeJob ⟨origin, bytes, language, label⟩ = .ok (encoding, Utf8.encode text) := by
    rw [decodeJob, h]
    rfl
  have hsource : jobSource ⟨origin, bytes, language, label⟩ (Utf8.encode text)
      = (Source.ofText text origin).mapError .source := by
    rw [jobSource, ofBytes_encode_eq_ofText]
  rw [extractFile, extractText, hdecode]
  simp only [bind, Except.bind, hsource]
  rfl

/-- **Extraction does not depend on the encoding.** A file that stands for a text decodes to it, in
the encoding it is meant in, and what is extracted from the file is what is extracted from the text;
so any two files that stand for one text give the same outcome. -/
theorem extractFile_of_represents {text : Text} {bytes : Bytes} {label : Option String}
    {encoding : Encoding} (h : Represents text bytes label encoding) :
    decodeFile bytes label = .ok (encoding, Utf8.encode text)
      ∧ ∀ (extractor : Extractor) (origin : Origin) (language : Option String),
        extractor.extractFile ⟨origin, bytes, language, label⟩
            = extractor.extractText origin language text
          ∧ ∀ {other : Bytes} {otherLabel : Option String} {otherEncoding : Encoding},
            Represents text other otherLabel otherEncoding →
              extractor.extractFile ⟨origin, other, language, otherLabel⟩
                = extractor.extractFile ⟨origin, bytes, language, label⟩ := by
  refine ⟨h.decodeFile_eq, ?_⟩
  intro extractor origin language
  have hfile : ∀ {file : Bytes} {name : Option String} {meant : Encoding},
      Represents text file name meant → extractor.extractFile ⟨origin, file, language, name⟩
        = extractor.extractText origin language text :=
    fun hfile ↦ extractor.extractFile_of_decodeFile hfile.decodeFile_eq
  refine ⟨hfile h, ?_⟩
  intro other otherLabel otherEncoding hother
  rw [hfile hother, hfile h]

/-- A noncharacter that looks like a mark of the other byte order, and a surrogate pair: stored in
UTF-16 under a label, and in UTF-8 behind a mark. -/
theorem extractFile_of_represents_swapped_mark :
    decodeFile [0xFE, 0xFF, 0x3D, 0xD8, 0x00, 0xDE] (some " UTF-16LE ")
        = .ok (.utf16le, [0xEF, 0xBF, 0xBE, 0xF0, 0x9F, 0x98, 0x80])
      ∧ ∀ (extractor : Extractor) (origin : Origin) (language : Option String),
        extractor.extractFile ⟨origin, [0xEF, 0xBB, 0xBF, 0xEF, 0xBF, 0xBE, 0xF0, 0x9F, 0x98, 0x80],
            language, none⟩
          = extractor.extractFile ⟨origin, [0xFE, 0xFF, 0x3D, 0xD8, 0x00, 0xDE], language,
            some " UTF-16LE "⟩ := by
  have hunmarked : Represents ['\uFFFE', '😀']
      (Encoding.utf16le.encode ['\uFFFE', '😀']) (some " UTF-16LE ") .utf16le :=
    .labelled (by decide) (by decide) (by decide +kernel)
  have hmarked : Represents ['\uFFFE', '😀']
      ([0xEF, 0xBB, 0xBF] ++ Encoding.utf8.encode ['\uFFFE', '😀']) none .utf8 :=
    .marked rfl (fun name hname ↦ absurd hname (Option.not_mem_none name))
  obtain ⟨hdecode, hextract⟩ := extractFile_of_represents hunmarked
  exact ⟨hdecode, fun extractor origin language ↦ (hextract extractor origin language).2 hmarked⟩

end Extractor

end CommentBlocks
