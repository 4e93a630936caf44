import CommentBlocks.Proofs.FirstPlaces
import Mathlib.Data.List.Infix

/-!
# Where nesting comments end

A comment whose delimiters nest is read as a sequence of tokens: its end token, its opener, and
single characters, in this order of preference. Delimiters may overlap in the text, as in `/*/`, so
it is the sequence that says which of them are meant; it is given by `nestTokens`. The comment ends
with the first end token that has no opener to match, that is behind the shortest front of the
sequence with one end token more than openers.

Two things go on at once while such a comment is read: the depth is counted, and the content is cut
into lines. They are taken apart here. `finds_commentPieces` follows the depth, for any depth to
begin with, and knows of the pieces only what text they make up. That the pieces are the lines of
this text is the other half (`pieceLines_eq_lines`).
-/

namespace CommentBlocks

/-! ## Tokens -/

/-- What a nesting comment is made of. -/
inductive NestToken where
  /-- The end token. -/
  | closer
  /-- The opener of an inner comment. -/
  | opener
  /-- A character that begins neither. -/
  | char (c : Char)
deriving DecidableEq

/-- The tokens of a text from left to right. The end token is tried first, then the opener. -/
def nestTokens (opener closer : Text) (text : Text) : List NestToken :=
  match text with
  | [] => []
  | c :: rest =>
    match hc : Text.afterToken? closer (c :: rest) with
    | some after =>
      have : after.length < rest.length + 1 := Text.length_lt_of_afterToken? hc
      .closer :: nestTokens opener closer after
    | none =>
      match ho : Text.afterToken? opener (c :: rest) with
      | some after =>
        have : after.length < rest.length + 1 := Text.length_lt_of_afterToken? ho
        .opener :: nestTokens opener closer after
      | none => .char c :: nestTokens opener closer rest
termination_by text.length

/-- The text that tokens stand for. -/
def spell (opener closer : Text) (tokens : List NestToken) : Text :=
  tokens.flatMap fun
    | .closer => closer
    | .opener => opener
    | .char c => [c]

/-- Of `depth` inner comments and the comment around them, all are closed: there are so many more
end tokens than openers. -/
def Balances (depth : Nat) (tokens : List NestToken) : Prop :=
  tokens.count .closer = tokens.count .opener + (depth + 1)

instance (depth : Nat) (tokens : List NestToken) : Decidable (Balances depth tokens) :=
  inferInstanceAs (Decidable (_ = _))

section Tokens

variable {opener closer text after : Text} {tokens : List NestToken} {depth n : Nat}

theorem nestTokens_of_closer (h : Text.afterToken? closer text = some after) :
    nestTokens opener closer text = .closer :: nestTokens opener closer after := by
  cases text with
  | nil => exact absurd (Text.length_lt_of_afterToken? h) (Nat.not_lt_zero _)
  | cons c text =>
    rw [nestTokens]
    split
    · next hclose =>
      rw [h, Option.some.injEq] at hclose
      rw [hclose]
    · next hnone => simp [h] at hnone

theorem nestTokens_of_opener (hclose : Text.afterToken? closer text = none)
    (h : Text.afterToken? opener text = some after) :
    nestTokens opener closer text = .opener :: nestTokens opener closer after := by
  cases text with
  | nil => exact absurd (Text.length_lt_of_afterToken? h) (Nat.not_lt_zero _)
  | cons c text =>
    rw [nestTokens]
    split
    · next hsome => simp [hclose] at hsome
    · split
      · next hopen =>
        rw [h, Option.some.injEq] at hopen
        rw [hopen]
      · next hnone => simp [h] at hnone

theorem nestTokens_of_plain {c : Char} (hclose : Text.afterToken? closer (c :: text) = none)
    (hopen : Text.afterToken? opener (c :: text) = none) :
    nestTokens opener closer (c :: text) = .char c :: nestTokens opener closer text := by
  rw [nestTokens]
  split
  · next hsome => simp [hclose] at hsome
  · split
    · next hsome => simp [hopen] at hsome
    · rfl

theorem not_balances_nil : ¬Balances depth [] := by
  intro h
  exact Nat.succ_ne_zero _ ((Nat.zero_add _).symm.trans h.symm)

theorem balances_char {c : Char} : Balances depth (.char c :: tokens) ↔ Balances depth tokens := by
  rw [Balances, Balances, List.count_cons_of_ne (by simp), List.count_cons_of_ne (by simp)]

theorem balances_opener : Balances depth (.opener :: tokens) ↔ Balances (depth + 1) tokens := by
  rw [Balances, Balances, List.count_cons_of_ne (by simp), List.count_cons_self]
  omega

theorem balances_closer : Balances (depth + 1) (.closer :: tokens) ↔ Balances depth tokens := by
  rw [Balances, Balances, List.count_cons_self, List.count_cons_of_ne (by simp)]
  omega

end Tokens

/-! ## Depth -/

section Depth

variable {opener closer : Text} {tokens : List NestToken} {pieces : List Text} {n : Nat}

/-- The first `n` tokens end with the end token, and before it they stand for the text that `pieces`
make up. -/
def SpellsPieces (opener closer : Text) (tokens : List NestToken) (n : Nat) (pieces : List Text) :
    Prop :=
  ∃ inside, tokens.take n = inside ++ [.closer] ∧ pieces.flatten = spell opener closer inside

/-- One more token in front of the others: the search goes on at the depth below it. -/
theorem finds_cons {token : NestToken} {depth below : Nat} {result : Option (List Text)}
    {f : List Text → List Text}
    (h : Finds (fun n ↦ Balances below (tokens.take n)) (SpellsPieces opener closer tokens) result)
    (hdepth : ∀ front, Balances depth (token :: front) ↔ Balances below front)
    (hpieces : ∀ pieces, (f pieces).flatten = spell opener closer [token] ++ pieces.flatten) :
    Finds (fun n ↦ Balances depth ((token :: tokens).take n))
      (SpellsPieces opener closer (token :: tokens)) (result.map f) := by
  refine .next (h.congr fun n ↦ hdepth _) not_balances_nil ?_
  rintro n pieces ⟨inside, htake, hspell⟩
  refine ⟨token :: inside, congrArg (token :: ·) htake, ?_⟩
  rw [hpieces, hspell, spell, spell, spell, ← List.flatMap_append, List.singleton_append]

/-- **The pieces of a comment make up the text of its tokens**, up to the end token that closes
it. -/
theorem finds_commentPieces (opener closer : Text) (depth : Nat) (text : Text) :
    Finds (fun n ↦ Balances depth ((nestTokens opener closer text).take n))
      (SpellsPieces opener closer (nestTokens opener closer text))
      (commentPieces opener closer depth text) := by
  have hcloser : spell opener closer [.closer] = closer := List.append_nil closer
  have hopener : spell opener closer [.opener] = opener := List.append_nil opener
  fun_induction commentPieces opener closer depth text with
  | case1 depth =>
    intro n h
    rw [nestTokens, List.take_nil] at h
    exact not_balances_nil h
  | case2 c rest after hclose =>
    rw [nestTokens_of_closer hclose]
    refine .here (n := 1) rfl ?_ ⟨[], rfl, rfl⟩
    intro i hi
    obtain rfl : i = 0 := by omega
    exact not_balances_nil
  | case3 c rest after hclose depth _ ih =>
    rw [nestTokens_of_closer hclose]
    apply finds_cons ih fun _ ↦ balances_closer
    intro pieces
    rw [flatten_prependPiece, hcloser]
  | case4 depth c rest hclose after hopen _ ih =>
    rw [nestTokens_of_opener hclose hopen]
    apply finds_cons ih fun _ ↦ balances_opener
    intro pieces
    rw [flatten_prependPiece, hopener]
  | case5 depth c rest hclose hopen ih =>
    rw [nestTokens_of_plain hclose hopen]
    apply finds_cons ih fun _ ↦ balances_char
    intro pieces
    -- a line feed cuts the pieces, but not the text they make up
    split
    · rfl
    · exact flatten_prependPiece [c] pieces

end Depth

/-! ## Lines -/

section Lines

variable {inner closer text token : Text} {depth : Nat} {pieces : List Text}

theorem pieceLines_prependPiece (htoken : token ≠ []) (pieces : List Text) :
    pieceLines none (prependPiece token pieces) = prependPiece token (pieceLines none pieces) := by
  match pieces with
  | [] => simp [pieceLines, prependPiece, Text.dropMargin, htoken]
  | [piece] =>
    by_cases hpiece : piece = []
    · simp [pieceLines, prependPiece, Text.dropMargin, hpiece, htoken]
    · simp [pieceLines, prependPiece, Text.dropMargin, hpiece]
  | piece :: other :: pieces =>
    rw [prependPiece, pieceLines, pieceLines, List.getLast?_cons_cons, List.getLast?_cons_cons,
      List.dropLast_cons_cons, List.dropLast_cons_cons]
    split
    · rfl
    · rfl

theorem pieceLines_eq_map (margin : Option Text) (pieces : List Text) :
    pieceLines margin pieces = (pieceLines none pieces).map (Text.dropMargin margin) := by
  rw [pieceLines, pieceLines, List.map_map]
  rfl

theorem pieceLines_eq_lines (hinner : '\n' ∉ inner) (hcloser : '\n' ∉ closer)
    (h : commentPieces inner closer depth text = some pieces) :
    pieceLines none pieces = Text.lines pieces.flatten := by
  fun_induction commentPieces inner closer depth text generalizing pieces with
  | case1 => simp at h
  | case2 c rest after hclose =>
    rw [Option.some.injEq] at h
    rw [← h]
    rfl
  | case3 c rest after hclose depth _ ih =>
    obtain ⟨pieces, hpieces, rfl⟩ := Option.map_eq_some_iff.mp h
    have hne := (Text.afterToken?_eq_some_iff.mp hclose).1
    rw [pieceLines_prependPiece hne, flatten_prependPiece, Text.lines_append hne hcloser,
      ih hpieces]
  | case4 depth c rest hclose after hopen _ ih =>
    obtain ⟨pieces, hpieces, rfl⟩ := Option.map_eq_some_iff.mp h
    have hne := (Text.afterToken?_eq_some_iff.mp hopen).1
    rw [pieceLines_prependPiece hne, flatten_prependPiece, Text.lines_append hne hinner,
      ih hpieces]
  | case5 depth c rest hclose hopen ih =>
    obtain ⟨pieces, hpieces, rfl⟩ := Option.map_eq_some_iff.mp h
    split
    · next hc =>
      rw [pieceLines_cons (List.cons_ne_nil _ _), List.flatten_cons, hc, List.singleton_append,
        Text.lines_feed, ih hpieces]
      rfl
    · next hc =>
      rw [pieceLines_prependPiece (List.cons_ne_nil _ _), flatten_prependPiece,
        List.singleton_append, Text.lines_cons hc, ih hpieces]

end Lines

/-- **A nesting comment ends where its delimiters balance.** Read the text behind the opener as
tokens. The comment closes exactly if some front of them has one end token more than openers. It is
then read to the end of the shortest such front; and its content, which is the text of that front
without the end token it ends with, is cut into lines, each of which loses its margin. Without a
margin the lines are the content, inner delimiters included. -/
theorem nested_comment_ends_at_balance {opener closer : Text} (hopener : '\n' ∉ opener)
    (hcloser : '\n' ∉ closer) (margin : Option Text) (cursor : Cursor) :
    let opened : OpenBlock := .delimited (.nested opener closer margin)
    let tokens := nestTokens opener closer cursor.rest
    ((cursor.closeBlock opened).1.wellTerminated = true
        ↔ ∃ front, front <+: tokens ∧ front.count .closer = front.count .opener + 1)
      ∧ ∀ n, IsLeast {n | (tokens.take n).count .closer = (tokens.take n).count .opener + 1} n →
        ∃ inside, tokens.take n = inside ++ [.closer]
          ∧ ∃ lines, cursor.ClosesWith opened lines (spell opener closer (tokens.take n))
            ∧ lines = (spell opener closer inside).lines.map (Text.dropMargin margin)
            ∧ (margin = none → lines.flatten = spell opener closer inside) := by
  intro opened tokens
  have hfinds := finds_commentPieces opener closer 0 cursor.rest
  constructor
  · have hsome : (opened.ending? cursor.rest).isSome
        = (commentPieces opener closer 0 cursor.rest).isSome := Option.isSome_map
    rw [Cursor.wellTerminated_closeBlock, hsome, hfinds.isSome_iff]
    constructor
    · rintro ⟨n, hn⟩
      exact ⟨_, List.take_prefix n tokens, hn⟩
    · rintro ⟨front, hfront, hcount⟩
      refine ⟨front.length, ?_⟩
      rw [← List.prefix_iff_eq_take.mp hfront]
      exact hcount
  · intro n hn
    obtain ⟨pieces, hpieces, inside, htake, hflatten⟩ := hfinds.exists_answer hn
    have hending : opened.ending? cursor.rest
        = some ⟨pieceLines margin pieces, pieces.flatten, some closer⟩ :=
      congrArg (Option.map _) hpieces
    have hlines : pieceLines margin pieces
        = (spell opener closer inside).lines.map (Text.dropMargin margin) := by
      rw [pieceLines_eq_map, pieceLines_eq_lines hopener hcloser hpieces, hflatten]
    have hread : spell opener closer (tokens.take n) = pieces.flatten ++ closer := by
      rw [htake, hflatten, spell, spell, List.flatMap_append, List.flatMap_singleton]
    refine ⟨inside, htake, _, ?_, hlines, ?_⟩
    · rw [hread]
      exact Cursor.closesWith_of_ending? hending
    · rintro rfl
      rw [pieceLines_eq_lines hopener hcloser hpieces, Text.flatten_lines, hflatten]

/-- In `/*/` the opener is followed by a slash, and in `*/*/` one end token by another. -/
theorem nested_comment_ends_at_balance_overlapping :
    let cursor : Cursor := Place.cursor ⟨.zero, "a /*/ b\n * c */*/ d".toList⟩
    let opened : OpenBlock := .delimited (.nested "/*".toList "*/".toList (some "*".toList))
    cursor.ClosesWith opened ["a /*/ b\n".toList, "c */".toList] "a /*/ b\n * c */*/".toList := by
  intro cursor opened
  let tokens := nestTokens "/*".toList "*/".toList cursor.rest
  have hleast : IsLeast
      {n | (tokens.take n).count .closer = (tokens.take n).count .opener + 1} 14 := by
    have hlow : ∀ n < 14, (tokens.take n).count .closer ≠ (tokens.take n).count .opener + 1 := by
      decide +kernel
    constructor
    · change (tokens.take 14).count .closer = (tokens.take 14).count .opener + 1
      decide +kernel
    · intro n hn
      exact Nat.le_of_not_lt fun hless ↦ hlow n hless hn
  obtain ⟨inside, htake, lines, hcloses, rfl, -⟩ :=
    (nested_comment_ends_at_balance (by decide) (by decide) (some "*".toList) cursor).2 14 hleast
  obtain rfl : (tokens.take 14).dropLast = inside := by rw [htake, List.dropLast_concat]
  have hlines : ((spell "/*".toList "*/".toList (tokens.take 14).dropLast).lines.map
      (Text.dropMargin (some "*".toList))) = ["a /*/ b\n".toList, "c */".toList] := by
    decide +kernel
  have hread : spell "/*".toList "*/".toList (tokens.take 14) = "a /*/ b\n * c */*/".toList := by
    decide +kernel
  rw [hlines, hread] at hcloses
  exact hcloses

end CommentBlocks
