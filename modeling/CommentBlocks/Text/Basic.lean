/-!
# Text, tokens and lines

Source text is kept as a list of Unicode scalar values and read from the front. Three notions of
it are used everywhere else and are fixed here: its size in UTF-8 bytes, the literal tokens that
delimit blocks, and its division into physical lines.

## Bytes and characters

Offsets are reported in bytes while reading goes by characters, so the two have to be related at
every cut. `Text.splitAtByte?` is that relation: it divides a text after a number of bytes, and has
no answer when the cut would fall inside a character or past the end.

## Tokens

A token is a non-empty literal. The empty text is accepted as the *value* of a token, because
language profiles are plain data, but it never matches: a delimiter that matched nothing would let
reading stand still.
-/

namespace CommentBlocks

/-- Source text, read one Unicode scalar value at a time. -/
abbrev Text := List Char

/-- The content of a file before it is known to be text. -/
abbrev Bytes := List UInt8

namespace Text

/-! ## Size in bytes -/

/-- The number of bytes `text` takes in UTF-8. -/
def byteLength (text : Text) : Nat := text.foldr (fun c length ↦ c.utf8Size + length) 0

@[simp] theorem byteLength_nil : byteLength [] = 0 := rfl

@[simp] theorem byteLength_cons (c : Char) (text : Text) :
    byteLength (c :: text) = c.utf8Size + byteLength text := rfl

@[simp] theorem byteLength_append (s t : Text) :
    byteLength (s ++ t) = byteLength s + byteLength t := by
  induction s with
  | nil => simp
  | cons c s ih =>
    rw [List.cons_append, byteLength_cons, byteLength_cons, ih]
    omega

/-- Divide `text` after its first `n` bytes, if that place is a character boundary of it. -/
def splitAtByte? : Nat → Text → Option (Text × Text)
  | 0, text => some ([], text)
  | _ + 1, [] => none
  | n + 1, c :: rest =>
    if c.utf8Size ≤ n + 1 then
      (splitAtByte? (n + 1 - c.utf8Size) rest).map fun (front, back) ↦ (c :: front, back)
    else none

/-- A division after `n` bytes is the one division whose front has `n` bytes. -/
theorem splitAtByte?_eq_some_iff {n : Nat} {text front back : Text} :
    splitAtByte? n text = some (front, back) ↔ text = front ++ back ∧ front.byteLength = n := by
  fun_induction splitAtByte? n text generalizing front with
  | case1 text =>
    constructor
    · intro h
      simp_all
    · rintro ⟨rfl, h⟩
      cases front with
      | nil => simp
      | cons c front =>
        have := c.utf8Size_pos
        simp only [byteLength_cons] at h
        omega
  | case2 n =>
    simp only [reduceCtorEq, false_iff, not_and]
    intro h
    simp_all
  | case3 n c rest hc ih =>
    cases front with
    | nil => simp [Option.map_eq_some_iff]
    | cons d front =>
      simp only [Option.map_eq_some_iff, Prod.exists, Prod.mk.injEq, List.cons.injEq,
        List.cons_append, byteLength_cons]
      constructor
      · rintro ⟨front', back', h, ⟨rfl, rfl⟩, rfl⟩
        obtain ⟨rfl, hlen⟩ := ih.mp h
        exact ⟨⟨rfl, rfl⟩, by omega⟩
      · rintro ⟨⟨rfl, hrest⟩, hlen⟩
        exact ⟨front, back, ih.mpr ⟨hrest, by omega⟩, ⟨rfl, rfl⟩, rfl⟩
  | case4 n c rest hc =>
    simp only [reduceCtorEq, false_iff, not_and]
    intro h
    cases front with
    | nil => simp
    | cons d front =>
      obtain ⟨rfl, -⟩ := List.cons.inj h
      simp only [byteLength_cons]
      omega

/-! ## Tokens -/

/-- What follows `token` when `text` starts with it. An empty token never matches. -/
def afterToken? (token text : Text) : Option Text :=
  if !token.isEmpty && token.isPrefixOf text then some (text.drop token.length) else none

/-- Whether `text` starts with `token`; never for an empty token. -/
def startsWith (token text : Text) : Bool := (afterToken? token text).isSome

theorem afterToken?_eq_some_iff {token text rest : Text} :
    afterToken? token text = some rest ↔ token ≠ [] ∧ text = token ++ rest := by
  unfold afterToken?
  constructor
  · intro h
    split at h
    · next hmatch =>
      rw [Bool.and_eq_true, List.isPrefixOf_iff_prefix] at hmatch
      obtain ⟨hne, more, rfl⟩ := hmatch
      exact ⟨by simpa using hne, by simpa using h⟩
    · simp at h
  · rintro ⟨hne, rfl⟩
    simp [hne]

theorem length_lt_of_afterToken? {token text rest : Text} (h : afterToken? token text = some rest) :
    rest.length < text.length := by
  obtain ⟨hne, rfl⟩ := afterToken?_eq_some_iff.mp h
  have := List.length_pos_iff.mpr hne
  rw [List.length_append]
  omega

theorem startsWith_iff {token text : Text} :
    startsWith token text = true ↔ token ≠ [] ∧ ∃ rest, text = token ++ rest := by
  rw [startsWith, Option.isSome_iff_exists]
  constructor
  · rintro ⟨rest, h⟩
    obtain ⟨hne, heq⟩ := afterToken?_eq_some_iff.mp h
    exact ⟨hne, rest, heq⟩
  · rintro ⟨hne, rest, heq⟩
    exact ⟨rest, afterToken?_eq_some_iff.mpr ⟨hne, heq⟩⟩

/-! ## Lines -/

/-- Divide `text` after its first line feed. Without one, the line is the whole text. -/
def splitLine : Text → Text × Text
  | [] => ([], [])
  | c :: rest =>
    if c = '\n' then ([c], rest)
    else ((c :: (splitLine rest).1), (splitLine rest).2)

@[simp] theorem splitLine_append (text : Text) :
    (splitLine text).1 ++ (splitLine text).2 = text := by
  induction text with
  | nil => rfl
  | cons c rest ih =>
    unfold splitLine
    split <;> simp [ih]

theorem length_splitLine_le (text : Text) : (splitLine text).2.length ≤ text.length := by
  have := congrArg List.length (splitLine_append text)
  rw [List.length_append] at this
  omega

theorem length_splitLine_lt (c : Char) (rest : Text) :
    (splitLine (c :: rest)).2.length < (c :: rest).length := by
  have h := congrArg List.length (splitLine_append (c :: rest))
  have : (splitLine (c :: rest)).1.length ≠ 0 := by
    unfold splitLine
    split <;> simp
  rw [List.length_append] at h
  omega

/-- The line break at the front of `text`: a line feed, or a carriage return and a line feed. -/
def lineBreak? (text : Text) : Option Text :=
  if startsWith ['\n'] text then some ['\n']
  else if startsWith ['\r', '\n'] text then some ['\r', '\n']
  else none

theorem eq_append_of_lineBreak? {text lineBreak : Text}
    (h : lineBreak? text = some lineBreak) :
    lineBreak ≠ [] ∧ ∃ rest, text = lineBreak ++ rest := by
  unfold lineBreak? at h
  split at h
  · next hn => exact Option.some_inj.mp h ▸ startsWith_iff.mp hn
  · split at h
    · next hrn => exact Option.some_inj.mp h ▸ startsWith_iff.mp hrn
    · simp at h

/-- Cut `text` at every `separator`, which is not kept. There is one piece more than separators. -/
def splitOn (separator : Char) : Text → List Text
  | [] => [[]]
  | c :: rest =>
    if c = separator then [] :: splitOn separator rest
    else
      match splitOn separator rest with
      | [] => [[c]]
      | piece :: pieces => (c :: piece) :: pieces

end Text

end CommentBlocks
