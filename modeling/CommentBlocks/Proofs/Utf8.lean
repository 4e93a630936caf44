import CommentBlocks.Document.Cursor
import Mathlib.Data.List.Basic

/-!
# UTF-8 as a code

Two facts about UTF-8 carry everything that is said about bytes elsewhere.

* It is a *prefix code*: what was written is read back, whatever follows it
  (`decodeChar?_encodeChar_append`, `decode_encode_append`). So a text is told by its bytes, and one
  text begins another exactly when its bytes begin the other's bytes (`encode_prefix_encode_iff`).
* It is *self-synchronizing*: the first byte of a character continues nothing, and all its other
  bytes do (`exists_encodeChar_eq_cons`).

Together they make searching in bytes the same as searching in characters
(`findBytes?_encode`): an occurrence of the bytes of a text cannot begin inside a character.
-/

namespace CommentBlocks

theorem toNat_ofNat_of_isValidChar {n : Nat} (h : n.isValidChar) : (Char.ofNat n).toNat = n := by
  rw [Char.ofNat, dif_pos h]
  rfl

namespace Utf8

/-! ## Bytes of a character -/

theorem toNat_range (c : Char) : c.toNat < 0xD800 ∨ (0xDFFF < c.toNat ∧ c.toNat < 0x110000) :=
  c.valid

private theorem toNat_byte {n : Nat} (h : n < 256) : (UInt8.ofNat n).toNat = n :=
  UInt8.toNat_ofNat_of_lt' h

private theorem toNat_tail (n : Nat) : (UInt8.ofNat (0x80 + n % 0x40)).toNat = 0x80 + n % 0x40 :=
  toNat_byte (by omega)

private theorem isContinuation_tail (n : Nat) :
    isContinuation (UInt8.ofNat (0x80 + n % 0x40)) = true := by
  rw [isContinuation, toNat_tail, Bool.and_eq_true, decide_eq_true_iff, decide_eq_true_iff]
  omega

private theorem low_tail (n : Nat) : low (UInt8.ofNat (0x80 + n % 0x40)) = n % 0x40 := by
  unfold low
  rw [toNat_tail]
  exact Nat.add_sub_cancel_left _ _

/-- Any continuation byte may come second, except behind the four leads that would allow overlong
forms, surrogates, or values past the last code point. -/
private theorem isSecond_of_isContinuation {a b : UInt8} (hb : isContinuation b = true)
    (hE0 : a.toNat = 0xE0 → 0xA0 ≤ b.toNat) (hED : a.toNat = 0xED → b.toNat ≤ 0x9F)
    (hF0 : a.toNat = 0xF0 → 0x90 ≤ b.toNat) (hF4 : a.toNat = 0xF4 → b.toNat ≤ 0x8F) :
    isSecond a b = true := by
  rw [isContinuation, Bool.and_eq_true, decide_eq_true_iff, decide_eq_true_iff] at hb
  unfold isSecond secondRange
  rw [Bool.and_eq_true, decide_eq_true_iff, decide_eq_true_iff]
  split
  · next h => exact ⟨hE0 h, by omega⟩
  · next h => exact ⟨hb.1, hED h⟩
  · next h => exact ⟨hF0 h, by omega⟩
  · next h => exact ⟨hb.1, hF4 h⟩
  · exact ⟨hb.1, by omega⟩

/-! ## A prefix code -/

private theorem decodeChar?_one {n : Nat} (h : n < 0x80) (rest : Bytes) :
    decodeChar? (UInt8.ofNat n :: rest) = some (Char.ofNat n, rest) := by
  have ha : (UInt8.ofNat n).toNat = n := toNat_byte (by omega)
  have hwidth : width (UInt8.ofNat n) = 1 := by
    simp only [width, ha, if_pos h]
  simp only [decodeChar?, hwidth, ha]

private theorem decodeChar?_two {n : Nat} (h : 0x80 ≤ n) (h' : n < 0x800) (rest : Bytes) :
    decodeChar? (UInt8.ofNat (0xC0 + n / 0x40) :: UInt8.ofNat (0x80 + n % 0x40) :: rest)
      = some (Char.ofNat n, rest) := by
  have ha : (UInt8.ofNat (0xC0 + n / 0x40)).toNat = 0xC0 + n / 0x40 := toNat_byte (by omega)
  have hwidth : width (UInt8.ofNat (0xC0 + n / 0x40)) = 2 := by
    simp only [width, ha]
    grind
  have hsecond : isSecond (UInt8.ofNat (0xC0 + n / 0x40)) (UInt8.ofNat (0x80 + n % 0x40)) = true :=
    isSecond_of_isContinuation (isContinuation_tail _) (by omega) (by omega) (by omega) (by omega)
  have hvalue : (0xC0 + n / 0x40 - 0xC0) * 0x40 + n % 0x40 = n := by omega
  simp only [decodeChar?, hwidth, if_pos hsecond, ha, low_tail, hvalue]

private theorem decodeChar?_three {n : Nat} (h : 0x800 ≤ n) (h' : n < 0x10000)
    (hsurrogate : n < 0xD800 ∨ 0xDFFF < n) (rest : Bytes) :
    decodeChar? (UInt8.ofNat (0xE0 + n / 0x1000) :: UInt8.ofNat (0x80 + n / 0x40 % 0x40)
      :: UInt8.ofNat (0x80 + n % 0x40) :: rest) = some (Char.ofNat n, rest) := by
  have ha : (UInt8.ofNat (0xE0 + n / 0x1000)).toNat = 0xE0 + n / 0x1000 := toNat_byte (by omega)
  have hb := toNat_tail (n / 0x40)
  have hwidth : width (UInt8.ofNat (0xE0 + n / 0x1000)) = 3 := by
    simp only [width, ha]
    grind
  have hsecond :
      isSecond (UInt8.ofNat (0xE0 + n / 0x1000)) (UInt8.ofNat (0x80 + n / 0x40 % 0x40)) = true :=
    isSecond_of_isContinuation (isContinuation_tail _) (by omega) (by omega) (by omega) (by omega)
  have hvalue : (0xE0 + n / 0x1000 - 0xE0) * 0x1000 + n / 0x40 % 0x40 * 0x40 + n % 0x40 = n := by
    omega
  simp only [decodeChar?, hwidth, hsecond, isContinuation_tail, Bool.and_self, if_true, ha,
    low_tail, hvalue]

private theorem decodeChar?_four {n : Nat} (h : 0x10000 ≤ n) (h' : n < 0x110000) (rest : Bytes) :
    decodeChar? (UInt8.ofNat (0xF0 + n / 0x40000) :: UInt8.ofNat (0x80 + n / 0x1000 % 0x40)
      :: UInt8.ofNat (0x80 + n / 0x40 % 0x40) :: UInt8.ofNat (0x80 + n % 0x40) :: rest)
      = some (Char.ofNat n, rest) := by
  have ha : (UInt8.ofNat (0xF0 + n / 0x40000)).toNat = 0xF0 + n / 0x40000 := toNat_byte (by omega)
  have hb := toNat_tail (n / 0x1000)
  have hwidth : width (UInt8.ofNat (0xF0 + n / 0x40000)) = 4 := by
    simp only [width, ha]
    grind
  have hsecond :
      isSecond (UInt8.ofNat (0xF0 + n / 0x40000)) (UInt8.ofNat (0x80 + n / 0x1000 % 0x40)) = true :=
    isSecond_of_isContinuation (isContinuation_tail _) (by omega) (by omega) (by omega) (by omega)
  have hvalue : (0xF0 + n / 0x40000 - 0xF0) * 0x40000 + n / 0x1000 % 0x40 * 0x1000
      + n / 0x40 % 0x40 * 0x40 + n % 0x40 = n := by
    omega
  simp only [decodeChar?, hwidth, hsecond, isContinuation_tail, Bool.and_self, if_true, ha,
    low_tail, hvalue]

/-- **A character is read back**, whatever bytes follow it. -/
theorem decodeChar?_encodeChar_append (c : Char) (rest : Bytes) :
    decodeChar? (encodeChar c ++ rest) = some (c, rest) := by
  have hrange := toNat_range c
  have hread : some (Char.ofNat c.toNat, rest) = some (c, rest) := by rw [Char.ofNat_toNat]
  unfold encodeChar
  dsimp only
  rw [← hread]
  split
  · next h => exact decodeChar?_one h rest
  · split
    · next h => exact decodeChar?_two (by omega) h rest
    · split
      · next h => exact decodeChar?_three (by omega) h (by omega) rest
      · exact decodeChar?_four (by omega) (by omega) rest

theorem encodeChar_append_inj {c d : Char} {s t : Bytes}
    (h : encodeChar c ++ s = encodeChar d ++ t) : c = d ∧ s = t := by
  have hread := decodeChar?_encodeChar_append c s
  rw [h, decodeChar?_encodeChar_append, Option.some.injEq, Prod.mk.injEq] at hread
  exact ⟨hread.1.symm, hread.2.symm⟩

@[simp] theorem encode_nil : encode [] = [] := rfl

@[simp] theorem encode_cons (c : Char) (text : Text) :
    encode (c :: text) = encodeChar c ++ encode text := rfl

@[simp] theorem encode_append (s t : Text) : encode (s ++ t) = encode s ++ encode t :=
  List.flatMap_append

theorem drop_encode_append (s t : Text) : (encode (s ++ t)).drop s.byteLength = encode t := by
  rw [encode_append, ← length_encode s, List.drop_left]

theorem take_encode_append (s t : Text) : (encode (s ++ t)).take s.byteLength = encode s := by
  rw [encode_append, ← length_encode s, List.take_left]

theorem decode_of_decodeChar? {bytes rest : Bytes} {c : Char}
    (h : decodeChar? bytes = some (c, rest)) :
    decode bytes = ⟨c :: (decode rest).text, (decode rest).rest⟩ := by
  rw [decode]
  split
  · next hnone =>
    rw [hnone] at h
    exact absurd h (Option.some_ne_none _).symm
  · next d more hsome =>
    rw [hsome, Option.some.injEq, Prod.mk.injEq] at h
    obtain ⟨rfl, rfl⟩ := h
    rfl

/-- **A text is read back**, whatever bytes follow it. -/
theorem decode_encode_append (text : Text) (rest : Bytes) :
    decode (encode text ++ rest) = ⟨text ++ (decode rest).text, (decode rest).rest⟩ := by
  induction text with
  | nil => rfl
  | cons c text ih =>
    have hfirst := decodeChar?_encodeChar_append c (encode text ++ rest)
    rw [encode_cons, List.append_assoc, decode_of_decodeChar? hfirst, ih, List.cons_append]

@[simp] theorem decode_encode (text : Text) : decode (encode text) = ⟨text, []⟩ := by
  have hnil : decode [] = ⟨[], []⟩ := by
    rw [decode]
    rfl
  rw [← List.append_nil (encode text), decode_encode_append, hnil, List.append_nil]

/-! ## Leads and continuations -/

/-- The first byte of a character continues nothing, and all its other bytes do. -/
theorem exists_encodeChar_eq_cons (c : Char) :
    ∃ lead tail, encodeChar c = lead :: tail ∧ isContinuation lead = false
      ∧ ∀ b ∈ tail, isContinuation b = true := by
  have hrange := toNat_range c
  have hlead : ∀ n < 256, (n < 0x80 ∨ 0xC0 ≤ n) → isContinuation (UInt8.ofNat n) = false := by
    intro n hn h
    rw [isContinuation, toNat_byte hn, Bool.and_eq_false_iff, decide_eq_false_iff_not,
      decide_eq_false_iff_not]
    omega
  unfold encodeChar
  dsimp only
  split
  · exact ⟨_, _, rfl, hlead _ (by omega) (by omega), List.forall_mem_nil _⟩
  · split
    · refine ⟨_, _, rfl, hlead _ (by omega) (by omega), ?_⟩
      simp only [List.forall_mem_cons, isContinuation_tail, List.not_mem_nil, false_implies,
        implies_true, and_self]
    · split
      · refine ⟨_, _, rfl, hlead _ (by omega) (by omega), ?_⟩
        simp only [List.forall_mem_cons, isContinuation_tail, List.not_mem_nil, false_implies,
          implies_true, and_self]
      · refine ⟨_, _, rfl, hlead _ (by omega) (by omega), ?_⟩
        simp only [List.forall_mem_cons, isContinuation_tail, List.not_mem_nil, false_implies,
          implies_true, and_self]

theorem encode_prefix_encode_iff {s t : Text} : encode s <+: encode t ↔ s <+: t := by
  constructor
  · intro h
    induction s generalizing t with
    | nil => exact List.nil_prefix
    | cons c s ih =>
      obtain ⟨more, hmore⟩ := h
      cases t with
      | nil =>
        obtain ⟨lead, tail, hc, -⟩ := exists_encodeChar_eq_cons c
        simp [hc] at hmore
      | cons d t =>
        rw [encode_cons, encode_cons, List.append_assoc] at hmore
        obtain ⟨rfl, hrest⟩ := encodeChar_append_inj hmore
        exact List.cons_prefix_cons.mpr ⟨rfl, ih ⟨more, hrest⟩⟩
  · rintro ⟨more, rfl⟩
    exact ⟨encode more, (encode_append s more).symm⟩

end Utf8

/-! ## Searching in bytes and in characters -/

/-- The text before the first occurrence of `token` in `text`. -/
def Text.before? (token : Text) : Text → Option Text
  | [] => none
  | c :: rest =>
    if Text.startsWith token (c :: rest) then some [] else (before? token rest).map (c :: ·)

@[simp] theorem Text.before?_nil (text : Text) : before? [] text = none := by
  induction text with
  | nil => rfl
  | cons c text ih =>
    have hstart : ¬startsWith [] (c :: text) = true := Bool.false_ne_true
    rw [before?, if_neg hstart, ih, Option.map_none]

theorem Text.eq_append_of_before? {token text front : Text} (h : before? token text = some front) :
    ∃ rest, text = front ++ (token ++ rest) := by
  induction text generalizing front with
  | nil => simp [before?] at h
  | cons c text ih =>
    rw [before?] at h
    split at h
    · next hstart =>
      obtain ⟨-, rest, hrest⟩ := startsWith_iff.mp hstart
      rw [Option.some.injEq] at h
      exact ⟨rest, by rw [hrest, ← h, List.nil_append]⟩
    · obtain ⟨front, hfront, rfl⟩ := Option.map_eq_some_iff.mp h
      obtain ⟨rest, rfl⟩ := ih hfront
      exact ⟨rest, rfl⟩

theorem Text.splitLine_fst (text : Text) :
    (splitLine text).1 = ((before? ['\n'] text).map (· ++ ['\n'])).getD text := by
  induction text with
  | nil => rfl
  | cons c text ih =>
    rw [splitLine, before?]
    by_cases hfeed : c = '\n'
    · subst hfeed
      rfl
    · have hstart : ¬startsWith ['\n'] (c :: text) = true := by
        rw [startsWith_iff]
        rintro ⟨-, rest, hrest⟩
        exact hfeed (List.cons.inj hrest).1
      rw [if_neg hfeed, if_neg hstart, ih]
      cases before? ['\n'] text <;> rfl

namespace Cursor

/-- Bytes that continue a character hold no occurrence of bytes that begin one. -/
private theorem findBytes?_append_of_isContinuation {lead : UInt8} {needle tail : Bytes}
    (bytes : Bytes) (hlead : Utf8.isContinuation lead = false)
    (htail : ∀ b ∈ tail, Utf8.isContinuation b = true) :
    findBytes? (lead :: needle) (tail ++ bytes)
      = (findBytes? (lead :: needle) bytes).map (· + tail.length) := by
  induction tail with
  | nil => simp
  | cons b tail ih =>
    have hb : Utf8.isContinuation b = true := htail b List.mem_cons_self
    have hne : lead ≠ b := by
      rintro rfl
      rw [hlead] at hb
      exact Bool.noConfusion hb
    have hprefix : ¬(lead :: needle).isPrefixOf (b :: (tail ++ bytes)) = true := by
      rw [List.isPrefixOf_iff_prefix, List.cons_prefix_cons]
      intro h
      exact hne h.1
    rw [List.cons_append, findBytes?, if_neg hprefix,
      ih fun b' hb' ↦ htail b' (List.mem_cons_of_mem b hb'), Option.map_map]
    congr 1

/-- **Searching in bytes is searching in characters.** The bytes of a token that is not empty are
found at a character boundary, before the first occurrence of the token itself. -/
theorem findBytes?_encode {token : Text} (htoken : token ≠ []) (text : Text) :
    findBytes? (Utf8.encode token) (Utf8.encode text)
      = (Text.before? token text).map Text.byteLength := by
  obtain ⟨t, token, rfl⟩ := List.exists_cons_of_ne_nil htoken
  obtain ⟨first, more, hfirst, hlead, -⟩ := Utf8.exists_encodeChar_eq_cons t
  have hneedle : Utf8.encode (t :: token) = first :: (more ++ Utf8.encode token) := by
    rw [Utf8.encode_cons, hfirst, List.cons_append]
  induction text with
  | nil =>
    rw [hneedle]
    rfl
  | cons c text ih =>
    obtain ⟨lead, tail, hc, -, htail⟩ := Utf8.exists_encodeChar_eq_cons c
    have hstart : (Utf8.encode (t :: token)).isPrefixOf (Utf8.encode (c :: text)) = true
        ↔ Text.startsWith (t :: token) (c :: text) = true := by
      rw [List.isPrefixOf_iff_prefix, Utf8.encode_prefix_encode_iff, Text.startsWith_iff]
      constructor
      · rintro ⟨rest, hrest⟩
        exact ⟨htoken, rest, hrest.symm⟩
      · rintro ⟨-, rest, hrest⟩
        exact ⟨rest, hrest.symm⟩
    have hbytes : Utf8.encode (c :: text) = lead :: (tail ++ Utf8.encode text) := by
      rw [Utf8.encode_cons, hc, List.cons_append]
    -- at the first byte the two searches test the same; inside the character neither can succeed
    rw [hbytes] at hstart ⊢
    rw [findBytes?, Text.before?]
    by_cases h : Text.startsWith (t :: token) (c :: text) = true
    · rw [if_pos (hstart.mpr h), if_pos h]
      rfl
    · have hsize : c.utf8Size = tail.length + 1 := by
        rw [← Utf8.length_encodeChar, hc, List.length_cons]
      rw [if_neg (mt hstart.mp h), if_neg h, hneedle,
        findBytes?_append_of_isContinuation _ hlead htail, ← hneedle, ih, Option.map_map,
        Option.map_map, Option.map_map]
      congr 1
      funext front
      simp only [Function.comp_apply, Text.byteLength_cons, hsize]
      omega

/-- Reading up to a delimiter, in characters. The offset found in bytes always divides the text. -/
theorem takeUntil_eq (cursor : Cursor) (delimiter : Text) (inclusive : Bool) :
    cursor.takeUntil delimiter inclusive =
      match Text.before? delimiter cursor.rest with
      | none => (none, cursor)
      | some front =>
        let text := if inclusive then front ++ delimiter else front
        (some text, cursor.read text) := by
  by_cases hdelimiter : delimiter = []
  · rw [takeUntil, if_pos (List.isEmpty_iff.mpr hdelimiter), hdelimiter, Text.before?_nil]
  · rw [takeUntil, if_neg (mt List.isEmpty_iff.mp hdelimiter), findBytes?_encode hdelimiter]
    cases hfront : Text.before? delimiter cursor.rest with
    | none => rfl
    | some front =>
      obtain ⟨tail, htail⟩ := Text.eq_append_of_before? hfront
      cases inclusive with
      | false =>
        have hsplit : Text.splitAtByte? front.byteLength cursor.rest
            = some (front, delimiter ++ tail) := Text.splitAtByte?_eq_some_iff.mpr ⟨htail, rfl⟩
        simp [hsplit]
      | true =>
        have hsplit : Text.splitAtByte? (front.byteLength + delimiter.byteLength) cursor.rest
            = some (front ++ delimiter, tail) :=
          Text.splitAtByte?_eq_some_iff.mpr
            ⟨by rw [htail, List.append_assoc], Text.byteLength_append front delimiter⟩
        simp [hsplit]

theorem takeLine_eq (cursor : Cursor) :
    cursor.takeLine
      = ((Text.splitLine cursor.rest).1, cursor.read (Text.splitLine cursor.rest).1) := by
  have hfind := findBytes?_encode (List.cons_ne_nil '\n' []) cursor.rest
  have hlength : ((findBytes? [0x0A] (Utf8.encode cursor.rest)).map (· + 1)).getD
      (Utf8.encode cursor.rest).length = (Text.splitLine cursor.rest).1.byteLength := by
    rw [show ([0x0A] : Bytes) = Utf8.encode ['\n'] from rfl, hfind, Utf8.length_encode,
      Text.splitLine_fst]
    cases Text.before? ['\n'] cursor.rest with
    | none => rfl
    | some front => exact (Text.byteLength_append front ['\n']).symm
  have hsplit : Text.splitAtByte? (Text.splitLine cursor.rest).1.byteLength cursor.rest
      = some (Text.splitLine cursor.rest) :=
    Text.splitAtByte?_eq_some_iff.mpr ⟨(Text.splitLine_append _).symm, rfl⟩
  rw [takeLine, hlength, hsplit]

end Cursor

end CommentBlocks
