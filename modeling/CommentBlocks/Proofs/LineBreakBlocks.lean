import CommentBlocks.Proofs.LineBreakLines
import CommentBlocks.Proofs.TruncatedBlocks

/-!
# Blocks in texts that differ in their line breaks

When no token of a block has a line break in it, the block ends at the same place of a text however
lines are broken there. The rules for its end are taken one by one, each by its own recursion. Where
the narrow text has a line feed the wide text has two characters, and the rule passes over both,
since no token begins with either of them; an escape in front of the line break passes over the
first and then the rule over the second.

For most rules the result is `Ending.toCrlf` of the other, and for the lines of comments it is up to
their margins. `OpenBlock.rel_ending?_toCrlf` puts this together.
-/

namespace CommentBlocks

/-! ## Tokens of a block -/

/-- The tokens of a block, and the characters of its margin. -/
def Delimited.tokens : Delimited → List Text
  | .string opener closer escape => opener :: closer :: escape.toList
  | .line opener => [opener]
  | .comment opener closer margin => opener :: closer :: margin.toList
  | .doubled quote => [quote]
  | .anchored opener closer => [opener, closer]
  | .nested opener closer margin => opener :: closer :: margin.toList
  | .fence mark => [mark]
  | .raw openers quote => quote :: openers

/-- The tokens of an opened block. For a heredoc it is the word that closes it. -/
def OpenBlock.tokens : OpenBlock → List Text
  | .delimited form => form.tokens
  | .heredoc label => [label.terminator]

/-! ## Strings -/

section Strings

variable {closer quote : Text} {escape : Option Text}

theorem afterEscape?_of_break {c : Char} (hescape : ∀ token ∈ escape, token.IsUnbroken)
    (hc : c = '\r' ∨ c = '\n') (rest : Text) : afterEscape? escape (c :: rest) = none := by
  cases escape with
  | none => rfl
  | some token => exact Text.afterToken?_of_break (hescape token rfl) hc rest

theorem afterEscape?_toCrlf (hescape : ∀ token ∈ escape, token.IsUnbroken) (text : Text) :
    afterEscape? escape text.toCrlf = (afterEscape? escape text).map Text.toCrlf := by
  cases escape with
  | none => rfl
  | some token => exact Text.afterToken?_toCrlf (hescape token rfl) text

theorem stringBody?_of_escape_at_end {text : Text} (h : afterEscape? escape text = some []) :
    stringBody? closer escape text = none := by
  cases text with
  | nil => exact absurd (length_lt_of_afterEscape? h) (Nat.not_lt_zero _)
  | cons c text =>
    rw [stringBody?]
    split
    · rfl
    · next hsome => simp [h] at hsome
    · next hnone => simp [h] at hnone

theorem stringBody?_of_break {c : Char} (hcloser : closer.IsUnbroken)
    (hescape : ∀ token ∈ escape, token.IsUnbroken) (hc : c = '\r' ∨ c = '\n') (rest : Text) :
    stringBody? closer escape (c :: rest) = (stringBody? closer escape rest).map (c :: ·) := by
  rw [stringBody?_of_no_escape (afterEscape?_of_break hescape hc rest), if_neg]
  rw [Text.startsWith, Text.afterToken?_of_break hcloser hc]
  exact Bool.false_ne_true

theorem stringBody?_toCrlf (hcloser : closer.IsUnbroken)
    (hescape : ∀ token ∈ escape, token.IsUnbroken) (text : Text) :
    stringBody? closer escape text.toCrlf
      = (stringBody? closer escape text).map Text.toCrlf := by
  fun_induction stringBody? closer escape text with
  | case1 =>
    rw [Text.toCrlf_nil, stringBody?]
    rfl
  | case2 c rest hend =>
    rw [stringBody?_of_escape_at_end, Option.map_none]
    rw [afterEscape?_toCrlf hescape, hend, Option.map_some, Text.toCrlf_nil]
  | case3 c rest escaped more hafter _ ih =>
    have hwide := afterEscape?_toCrlf hescape (c :: rest)
    obtain ⟨token, rfl, -⟩ := Option.bind_eq_some_iff.mp hafter
    have htoken : token.toCrlf = token := Text.toCrlf_eq_self (hescape token rfl).2
    rw [hafter, Option.map_some] at hwide
    rw [Option.map_map]
    by_cases hescaped : escaped = '\n'
    · -- the escape passes over the carriage return, and the line feed is read as it stands
      rw [hescaped, Text.toCrlf_feed] at hwide
      rw [stringBody?_of_escape hwide, stringBody?_of_break hcloser hescape (Or.inr rfl), ih,
        Option.map_map, Option.map_map, hescaped]
      congr 1
      funext body
      simp [htoken]
    · rw [Text.toCrlf_cons hescaped] at hwide
      rw [stringBody?_of_escape hwide, ih, Option.map_map]
      congr 1
      funext body
      simp [htoken, Text.toCrlf_cons hescaped]
  | case4 c rest hnone hclose =>
    have hc : c ≠ '\n' := by
      rintro rfl
      rw [Text.startsWith, Text.afterToken?_of_break hcloser (Or.inr rfl)] at hclose
      exact Bool.false_ne_true hclose
    have hwide := afterEscape?_toCrlf hescape (c :: rest)
    have hstart := Text.startsWith_toCrlf hcloser (c :: rest)
    rw [Text.toCrlf_cons hc] at hwide hstart ⊢
    rw [hnone, Option.map_none] at hwide
    rw [stringBody?_of_no_escape hwide, hstart, if_pos hclose, Option.map_some, Text.toCrlf_nil]
  | case5 c rest hnone hclose ih =>
    rw [Option.map_map]
    by_cases hc : c = '\n'
    · rw [hc, Text.toCrlf_feed, stringBody?_of_break hcloser hescape (Or.inl rfl),
        stringBody?_of_break hcloser hescape (Or.inr rfl), ih, Option.map_map, Option.map_map]
      rfl
    · have hwide := afterEscape?_toCrlf hescape (c :: rest)
      have hstart := Text.startsWith_toCrlf hcloser (c :: rest)
      rw [Text.toCrlf_cons hc] at hwide hstart ⊢
      rw [hnone, Option.map_none] at hwide
      rw [stringBody?_of_no_escape hwide, hstart, if_neg hclose, ih, Option.map_map]
      congr 1
      funext body
      exact (Text.toCrlf_cons hc body).symm

theorem doubledBody?_of_break {c : Char} (hquote : quote.IsUnbroken) (hc : c = '\r' ∨ c = '\n')
    (rest : Text) : doubledBody? quote (c :: rest) = (doubledBody? quote rest).map (c :: ·) :=
  doubledBody?_of_no_quote (Text.afterToken?_of_break hquote hc rest)

theorem doubledBody?_toCrlf (hquote : quote.IsUnbroken) (text : Text) :
    doubledBody? quote text.toCrlf = (doubledBody? quote text).map Text.toCrlf := by
  have hself : quote.toCrlf = quote := Text.toCrlf_eq_self hquote.2
  fun_induction doubledBody? quote text with
  | case1 =>
    rw [Text.toCrlf_nil, doubledBody?]
    rfl
  | case2 c rest hnone ih =>
    rw [Option.map_map]
    by_cases hc : c = '\n'
    · rw [hc, Text.toCrlf_feed, doubledBody?_of_break hquote (Or.inl rfl),
        doubledBody?_of_break hquote (Or.inr rfl), ih, Option.map_map, Option.map_map]
      rfl
    · have hwide := Text.afterToken?_toCrlf hquote (c :: rest)
      rw [hnone, Option.map_none, Text.toCrlf_cons hc] at hwide
      rw [Text.toCrlf_cons hc, doubledBody?_of_no_quote hwide, ih, Option.map_map]
      congr 1
      funext body
      exact (Text.toCrlf_cons hc body).symm
  | case3 c rest inside hfirst hsecond =>
    have hwide := Text.afterToken?_toCrlf hquote (c :: rest)
    rw [hfirst, Option.map_some] at hwide
    rw [doubledBody?_of_quote hwide, Text.afterToken?_toCrlf hquote, hsecond]
    rfl
  | case4 c rest inside hfirst more hsecond _ ih =>
    have hwide := Text.afterToken?_toCrlf hquote (c :: rest)
    rw [hfirst, Option.map_some] at hwide
    rw [doubledBody?_of_quote hwide, Text.afterToken?_toCrlf hquote, hsecond]
    dsimp only [Option.map_some]
    rw [ih, Option.map_map, Option.map_map]
    congr 1
    funext body
    simp [hself]

end Strings

/-! ## Endings -/

def Ending.toCrlf (ending : Ending) : Ending :=
  ⟨ending.lines.map Text.toCrlf, ending.body.toCrlf, ending.last.map Text.toCrlf⟩

theorem Ending.read_toCrlf (ending : Ending) : ending.toCrlf.read = ending.read.toCrlf := by
  rw [Ending.read, Ending.read, Ending.toCrlf, Text.toCrlf_append]
  cases ending.last <;> rfl

theorem fenceEnding?_of_break {mark : Text} {c : Char} (hmark : mark.IsUnbroken)
    (hc : c = '\r' ∨ c = '\n') (rest : Text) :
    fenceEnding? mark (c :: rest)
      = (fenceEnding? mark rest).map fun ending ↦ { ending with body := c :: ending.body } := by
  apply fenceEnding?_of_no_mark
  intro after hafter
  rw [Text.afterToken?_of_break hmark hc] at hafter
  exact absurd hafter (Option.some_ne_none _).symm

theorem fenceEnding?_toCrlf {mark : Text} (hmark : mark.IsUnbroken) (text : Text) :
    fenceEnding? mark text.toCrlf = (fenceEnding? mark text).map Ending.toCrlf := by
  induction text with
  | nil => rfl
  | cons c text ih =>
    have hwide := Text.afterToken?_toCrlf hmark (c :: text)
    by_cases hclose : ∃ after, Text.afterToken? mark (c :: text) = some after
        ∧ (Text.splitLine after).1.isBlank = true
    · obtain ⟨after, hafter, hblank⟩ := hclose
      have hline : (Text.splitLine after.toCrlf).1 = (Text.splitLine after).1.toCrlf := by
        rw [Text.splitLine_toCrlf]
      rw [hafter, Option.map_some] at hwide
      rw [fenceEnding?_of_mark hafter hblank, fenceEnding?_of_mark hwide, hline]
      · rw [Option.map_some, Ending.toCrlf, Text.toCrlf_eq_self hmark.2]
        rfl
      · rw [hline, Text.isBlank_toCrlf, hblank]
    · have hopen : ∀ after, Text.afterToken? mark (c :: text) = some after →
          ¬(Text.splitLine after).1.isBlank = true :=
        fun after hafter hblank ↦ hclose ⟨after, hafter, hblank⟩
      rw [fenceEnding?_of_no_mark hopen, Option.map_map]
      by_cases hc : c = '\n'
      · rw [hc, Text.toCrlf_feed, fenceEnding?_of_break hmark (Or.inl rfl),
          fenceEnding?_of_break hmark (Or.inr rfl), ih, Option.map_map, Option.map_map]
        rfl
      · rw [Text.toCrlf_cons hc] at hwide ⊢
        rw [fenceEnding?_of_no_mark, ih, Option.map_map]
        · congr 1
          funext ending
          simp [Ending.toCrlf, Text.toCrlf_cons hc]
        · -- a mark that does not close has the same line behind it
          intro after hafter
          rw [hwide] at hafter
          obtain ⟨narrow, hnarrow, rfl⟩ := Option.map_eq_some_iff.mp hafter
          rw [Text.splitLine_toCrlf, Text.isBlank_toCrlf]
          exact hopen narrow hnarrow

/-! ## Comments -/

section Comments

variable {inner closer : Text} {depth : Nat}

theorem prependPiece_toCrlf (text : Text) (pieces : List Text) :
    prependPiece text.toCrlf (pieces.map Text.toCrlf)
      = (prependPiece text pieces).map Text.toCrlf := by
  cases pieces with
  | nil => rfl
  | cons piece pieces => simp [prependPiece]

theorem commentPieces_of_break {c : Char} (hinner : inner.IsUnbroken)
    (hcloser : closer.IsUnbroken) (hc : c = '\r' ∨ c = '\n') (rest : Text) :
    commentPieces inner closer depth (c :: rest)
      = (commentPieces inner closer depth rest).map fun pieces ↦
        if c = '\n' then [c] :: pieces else prependPiece [c] pieces :=
  commentPieces_of_plain (Text.afterToken?_of_break hcloser hc rest)
    (Text.afterToken?_of_break hinner hc rest)

theorem commentPieces_toCrlf (hinner : inner.IsUnbroken) (hcloser : closer.IsUnbroken)
    (text : Text) :
    commentPieces inner closer depth text.toCrlf
      = (commentPieces inner closer depth text).map (List.map Text.toCrlf) := by
  have hinnerSelf : inner.toCrlf = inner := Text.toCrlf_eq_self hinner.2
  have hcloserSelf : closer.toCrlf = closer := Text.toCrlf_eq_self hcloser.2
  fun_induction commentPieces inner closer depth text with
  | case1 =>
    rw [Text.toCrlf_nil, commentPieces]
    rfl
  | case2 c rest after hclose =>
    have hwide := Text.afterToken?_toCrlf hcloser (c :: rest)
    rw [hclose, Option.map_some] at hwide
    rw [commentPieces_of_closer hwide]
    rfl
  | case3 c rest after hclose depth _ ih =>
    have hwide := Text.afterToken?_toCrlf hcloser (c :: rest)
    rw [hclose, Option.map_some] at hwide
    rw [commentPieces_of_closer hwide]
    dsimp only
    rw [ih, Option.map_map, Option.map_map]
    congr 1
    funext pieces
    rw [Function.comp_apply, Function.comp_apply, ← prependPiece_toCrlf, hcloserSelf]
  | case4 depth c rest hclose after hopen _ ih =>
    have hwideClose := Text.afterToken?_toCrlf hcloser (c :: rest)
    have hwide := Text.afterToken?_toCrlf hinner (c :: rest)
    rw [hclose, Option.map_none] at hwideClose
    rw [hopen, Option.map_some] at hwide
    rw [commentPieces_of_inner hwideClose hwide, ih, Option.map_map, Option.map_map]
    congr 1
    funext pieces
    rw [Function.comp_apply, Function.comp_apply, ← prependPiece_toCrlf, hinnerSelf]
  | case5 depth c rest hclose hopen ih =>
    rw [Option.map_map]
    by_cases hc : c = '\n'
    · -- the carriage return goes in front of the piece that the line feed makes
      rw [hc, Text.toCrlf_feed, commentPieces_of_break hinner hcloser (Or.inl rfl),
        commentPieces_of_break hinner hcloser (Or.inr rfl), ih, Option.map_map, Option.map_map]
      rfl
    · have hwideClose := Text.afterToken?_toCrlf hcloser (c :: rest)
      have hwide := Text.afterToken?_toCrlf hinner (c :: rest)
      rw [hclose, Option.map_none, Text.toCrlf_cons hc] at hwideClose
      rw [hopen, Option.map_none, Text.toCrlf_cons hc] at hwide
      rw [Text.toCrlf_cons hc, commentPieces_of_plain hwideClose hwide, ih, Option.map_map]
      congr 1
      funext pieces
      rw [Function.comp_apply, Function.comp_apply, if_neg hc, if_neg hc, ← prependPiece_toCrlf,
        Text.toCrlf_cons hc, Text.toCrlf_nil]

end Comments

/-! ## Line comments -/

theorem chainEnding_toCrlf {opener : Text} (hopener : opener.IsUnbroken) (text : Text) :
    chainEnding opener text.toCrlf = (chainEnding opener text).toCrlf := by
  fun_induction chainEnding opener text with
  | case1 text line next hend =>
    have hnext : next = [] := List.isEmpty_iff.mp hend
    rw [chainEnding_of_last, Text.splitLine_toCrlf]
    · rfl
    · rw [Text.splitLine_toCrlf, Text.toCrlf_eq_nil_iff]
      exact hnext
  | case2 text line next hend hnone =>
    have hne : next ≠ [] := by simpa using hend
    rw [chainEnding_of_other, Text.splitLine_toCrlf]
    · rfl
    · rw [Text.splitLine_toCrlf, ne_eq, Text.toCrlf_eq_nil_iff]
      exact hne
    · rw [Text.splitLine_toCrlf, Text.afterToken?_skip_spaces_toCrlf hopener, hnone,
        Option.map_none]
  | case3 text line next hend more hmore _ others ih =>
    have hwide : Text.afterToken? opener ((Text.splitLine text.toCrlf).2.dropWhile isSpace)
        = some more.toCrlf := by
      rw [Text.splitLine_toCrlf, Text.afterToken?_skip_spaces_toCrlf hopener, hmore,
        Option.map_some]
    have hspaces : next.toCrlf.takeWhile isSpace = next.takeWhile isSpace := by
      rcases Text.skip_spaces_toCrlf next with ⟨rest, hfeed, -⟩ | ⟨hsame, -⟩
      · -- an opener follows the spaces, not a line break
        rw [hfeed, Text.afterToken?_of_break hopener (Or.inr rfl)] at hmore
        exact absurd hmore (Option.some_ne_none _).symm
      · exact hsame
    rw [chainEnding_of_more hwide, Text.splitLine_toCrlf, ih]
    dsimp only [Ending.toCrlf]
    rw [hspaces, Text.toCrlf_append, Text.toCrlf_append, Text.toCrlf_append,
      Text.toCrlf_eq_self (Text.not_mem_takeWhile_isSpace next), Text.toCrlf_eq_self hopener.2]
    rfl

/-! ## Blocks closed by a whole line -/

section ClosingLines

def closeToCrlf (close : Text × Text) : Text × Text := (close.1.toCrlf, close.2.toCrlf)

variable {body token closer text : Text}

theorem lineEnd?_toCrlf (hbody : body.IsUnbroken) (htoken : token.IsUnbroken)
    (htext : '\r' ∉ text) :
    lineEnd? body token text.toCrlf = (lineEnd? body token text).map closeToCrlf := by
  rw [lineEnd?, lineEnd?, Text.isEmpty_toCrlf, Text.lineBreak?_toCrlf htext]
  split
  · rw [Option.map_some, closeToCrlf, Text.toCrlf_eq_self hbody.2, Text.toCrlf_eq_self htoken.2]
  · rw [Option.map_map, Option.map_map]
    congr 1
    funext lineBreak
    simp [closeToCrlf, Text.toCrlf_eq_self hbody.2, Text.toCrlf_eq_self htoken.2]

theorem not_mem_of_afterToken? {rest : Text} (h : Text.afterToken? token text = some rest)
    (htext : '\r' ∉ text) : '\r' ∉ rest := by
  rw [(Text.afterToken?_eq_some_iff.mp h).2] at htext
  exact fun hmem ↦ htext (List.mem_append_right _ hmem)

theorem anchoredClose?_toCrlf (hcloser : closer.IsUnbroken) (htext : '\r' ∉ text) :
    anchoredClose? closer text.toCrlf = (anchoredClose? closer text).map closeToCrlf := by
  rw [anchoredClose?, anchoredClose?, Text.afterToken?_toCrlf hcloser]
  cases hafter : Text.afterToken? closer text with
  | none => rfl
  | some rest =>
    rw [Option.map_some, Option.bind_some, Option.bind_some]
    exact lineEnd?_toCrlf ⟨List.not_mem_nil, List.not_mem_nil⟩ hcloser
      (not_mem_of_afterToken? hafter htext)

theorem heredocClose?_toCrlf (hcloser : closer.IsUnbroken) (htext : '\r' ∉ text) :
    heredocClose? closer text.toCrlf = (heredocClose? closer text).map closeToCrlf := by
  have hsemicolon : Text.IsUnbroken [';'] := by decide
  rw [heredocClose?, heredocClose?, Text.afterToken?_toCrlf hcloser]
  cases hafter : Text.afterToken? closer text with
  | none => rfl
  | some rest =>
    have hrest := not_mem_of_afterToken? hafter htext
    rw [Option.map_some, Option.bind_some, Option.bind_some, Text.afterToken?_toCrlf hsemicolon]
    cases hmore : Text.afterToken? [';'] rest with
    | none => exact lineEnd?_toCrlf ⟨List.not_mem_nil, List.not_mem_nil⟩ hcloser hrest
    | some more =>
      exact lineEnd?_toCrlf hcloser hsemicolon (not_mem_of_afterToken? hmore hrest)

theorem linesEnding?_toCrlf {close? : Text → Option (Text × Text)}
    (hclose : ∀ {text : Text}, '\r' ∉ text →
      close? text.toCrlf = (close? text).map closeToCrlf) (htext : '\r' ∉ text) :
    linesEnding? close? text.toCrlf = (linesEnding? close? text).map Ending.toCrlf := by
  have hne : ∀ (c : Char) (rest : Text), Text.toCrlf (c :: rest) ≠ [] := by
    intro c rest
    rw [ne_eq, Text.toCrlf_eq_nil_iff]
    exact List.cons_ne_nil _ _
  fun_induction linesEnding? close? text with
  | case1 =>
    rw [Text.toCrlf_nil, linesEnding?]
    rfl
  | case2 c rest body last hhere =>
    rw [linesEnding?_of_close (hne c rest) (by rw [hclose htext, hhere]; rfl)]
    rfl
  | case3 c rest hhere _ line =>
    rename_i ih
    have hlater : '\r' ∉ (Text.splitLine (c :: rest)).2 := by
      intro hmem
      exact htext (Text.mem_splitLine.mpr (Or.inr hmem))
    rw [linesEnding?_of_no_close (hne c rest) (by rw [hclose htext, hhere]; rfl),
      Text.splitLine_toCrlf]
    dsimp only
    rw [ih hlater, Option.map_map, Option.map_map]
    congr 1
    funext ending
    simp [Ending.toCrlf, line]

end ClosingLines

/-! ## Lines of a block -/

theorem Text.IsLine.append {text line : Text} (htext : '\n' ∉ text) (h : line.IsLine) :
    IsLine (text ++ line) := by
  cases line with
  | nil =>
    rw [List.append_nil]
    exact fun hmem ↦ htext (List.dropLast_subset _ hmem)
  | cons c line =>
    rw [IsLine, List.dropLast_append_cons, List.mem_append, not_or]
    exact ⟨htext, h⟩

theorem isLine_of_mem_prependPiece {text piece : Text} {pieces : List Text} (htext : '\n' ∉ text)
    (h : ∀ piece ∈ pieces, piece.IsLine) (hpiece : piece ∈ prependPiece text pieces) :
    piece.IsLine := by
  cases pieces with
  | nil =>
    rw [List.mem_singleton.mp hpiece]
    exact fun hmem ↦ htext (List.dropLast_subset _ hmem)
  | cons first pieces =>
    rcases List.mem_cons.mp hpiece with rfl | hmem
    · exact .append htext (h first List.mem_cons_self)
    · exact h piece (List.mem_cons_of_mem _ hmem)

theorem isLine_of_mem_commentPieces {inner closer text piece : Text} {depth : Nat}
    {pieces : List Text} (hinner : inner.IsUnbroken) (hcloser : closer.IsUnbroken)
    (h : commentPieces inner closer depth text = some pieces) (hpiece : piece ∈ pieces) :
    piece.IsLine := by
  fun_induction commentPieces inner closer depth text generalizing pieces piece with
  | case1 => simp at h
  | case2 c rest after hclose =>
    rw [Option.some.injEq] at h
    rw [← h, List.mem_singleton] at hpiece
    rw [hpiece]
    exact List.not_mem_nil
  | case3 c rest after hclose depth _ ih =>
    obtain ⟨later, hlater, rfl⟩ := Option.map_eq_some_iff.mp h
    exact isLine_of_mem_prependPiece hcloser.2 (fun other hother ↦ ih hlater hother) hpiece
  | case4 depth c rest hclose after hopen _ ih =>
    obtain ⟨later, hlater, rfl⟩ := Option.map_eq_some_iff.mp h
    exact isLine_of_mem_prependPiece hinner.2 (fun other hother ↦ ih hlater hother) hpiece
  | case5 depth c rest hclose hopen ih =>
    obtain ⟨later, hlater, rfl⟩ := Option.map_eq_some_iff.mp h
    split at hpiece
    · rcases List.mem_cons.mp hpiece with rfl | hmem
      · exact List.not_mem_nil
      · exact ih hlater hmem
    · next hc =>
      refine isLine_of_mem_prependPiece ?_ (fun other hother ↦ ih hlater hother) hpiece
      rw [List.mem_singleton]
      exact Ne.symm hc

theorem isLine_of_mem_chainEnding {opener text line : Text}
    (h : line ∈ (chainEnding opener text).lines) : line.IsLine := by
  fun_induction chainEnding opener text with
  | case1 text =>
    rw [List.mem_singleton.mp h]
    exact Text.isLine_splitLine text
  | case2 text =>
    rw [List.mem_singleton.mp h]
    exact Text.isLine_splitLine text
  | case3 text first next _ more _ _ others ih =>
    rcases List.mem_cons.mp h with rfl | hmem
    · exact Text.isLine_splitLine text
    · exact ih hmem

theorem isLine_of_mem_linesEnding? {close? : Text → Option (Text × Text)} {text line : Text}
    {ending : Ending} (h : linesEnding? close? text = some ending) (hline : line ∈ ending.lines) :
    line.IsLine := by
  fun_induction linesEnding? close? text generalizing ending with
  | case1 => simp at h
  | case2 =>
    rw [Option.some.injEq] at h
    rw [← h] at hline
    exact absurd hline List.not_mem_nil
  | case3 c rest hhere _ first =>
    rename_i ih
    obtain ⟨later, hlater, rfl⟩ := Option.map_eq_some_iff.mp h
    rcases List.mem_cons.mp hline with rfl | hmem
    · exact Text.isLine_splitLine (c :: rest)
    · exact ih hlater hmem

/-! ## All kinds -/

/-- Endings of one block in two texts that differ in how they break lines. -/
structure SameEnding (wide narrow : Ending) : Prop where
  /-- The same text is read. -/
  read : wide.read = narrow.read.toCrlf
  /-- The same lines are found. -/
  lines : List.Forall₂ SameLine wide.lines narrow.lines

theorem forall₂_sameLine_map {lines : List Text} {f g : Text → Text}
    (h : ∀ line ∈ lines, SameLine (f line) (g line)) :
    List.Forall₂ SameLine (lines.map f) (lines.map g) := by
  rw [List.forall₂_map_left_iff, List.forall₂_map_right_iff, List.forall₂_same]
  exact h

theorem sameEnding_toCrlf {ending : Ending}
    (h : ∀ line ∈ ending.lines, line.IsLine ∧ '\r' ∉ line) :
    SameEnding ending.toCrlf ending := by
  refine ⟨ending.read_toCrlf, ?_⟩
  rw [← List.map_id ending.lines]
  exact forall₂_sameLine_map fun line hline ↦ (h line hline).1.sameLine (h line hline).2

theorem not_mem_of_sublist {text line : Text} {ending : Ending}
    (hread : ∃ rest, text = ending.read ++ rest) (hlines : ending.lines.flatten.Sublist ending.read)
    (htext : '\r' ∉ text) (hline : line ∈ ending.lines) : '\r' ∉ line := by
  intro hmem
  obtain ⟨rest, rfl⟩ := hread
  apply htext
  exact List.mem_append_left _ (hlines.subset (List.mem_flatten.mpr ⟨line, hline, hmem⟩))

theorem rel_map_toCrlf {found : Option Ending}
    (h : ∀ ending ∈ found, ∀ line ∈ ending.lines, line.IsLine ∧ '\r' ∉ line) :
    Option.Rel SameEnding (found.map Ending.toCrlf) found := by
  cases found with
  | none => exact .none
  | some ending => exact .some (sameEnding_toCrlf (h ending rfl))

theorem rel_closedBy {token : Text} (htoken : token.IsUnbroken) (found : Option Text) :
    Option.Rel SameEnding ((found.map Text.toCrlf).map (Ending.closedBy token))
      (found.map (Ending.closedBy token)) := by
  cases found with
  | none => exact .none
  | some body =>
    refine .some ⟨?_, .nil⟩
    rw [read_closedBy, read_closedBy, Text.toCrlf_append, Text.toCrlf_eq_self htoken.2]

theorem rel_commentEnding? {inner closer text : Text} (hinner : inner.IsUnbroken)
    (hcloser : closer.IsUnbroken) (htext : '\r' ∉ text) (margin : Option Text) :
    Option.Rel SameEnding (commentEnding? inner closer margin text.toCrlf)
      (commentEnding? inner closer margin text) := by
  rw [commentEnding?, commentEnding?, commentPieces_toCrlf hinner hcloser]
  cases hpieces : commentPieces inner closer 0 text with
  | none => exact .none
  | some pieces =>
    have hlines : ∀ line ∈ (if pieces.getLast? = some [] then pieces.dropLast else pieces),
        line.IsLine ∧ '\r' ∉ line := by
      intro line hline
      have hpiece : line ∈ pieces := by
        split at hline
        · exact List.dropLast_subset _ hline
        · exact hline
      refine ⟨isLine_of_mem_commentPieces hinner hcloser hpieces hpiece, fun hmem ↦ htext ?_⟩
      obtain ⟨rest, rfl⟩ := eq_append_of_commentPieces hpieces
      exact List.mem_append_left _ (List.mem_flatten.mpr ⟨line, hpiece, hmem⟩)
    have hkept : (if (pieces.map Text.toCrlf).getLast? = some []
          then (pieces.map Text.toCrlf).dropLast else pieces.map Text.toCrlf)
        = (if pieces.getLast? = some [] then pieces.dropLast else pieces).map Text.toCrlf := by
      have hlast : (pieces.map Text.toCrlf).getLast? = some [] ↔ pieces.getLast? = some [] := by
        rw [List.getLast?_map, Option.map_eq_some_iff]
        simp
      by_cases hempty : pieces.getLast? = some []
      · rw [if_pos hempty, if_pos (hlast.mpr hempty), List.map_dropLast]
      · rw [if_neg hempty, if_neg (mt hlast.mp hempty)]
    refine .some ⟨?_, ?_⟩
    · rw [Ending.read, Ending.read, Text.toCrlf_append, Text.toCrlf_flatten]
      dsimp only [Option.getD_some]
      rw [Text.toCrlf_eq_self hcloser.2]
    · dsimp only
      rw [hkept, List.map_map]
      exact forall₂_sameLine_map fun line hline ↦
        (hlines line hline).1.sameLine_dropMargin (hlines line hline).2 margin

/-- **A block whose tokens have no line breaks ends alike in both texts.** -/
theorem OpenBlock.rel_ending?_toCrlf {block : OpenBlock} {text : Text}
    (hblock : ∀ token ∈ block.tokens, token.IsUnbroken) (htext : '\r' ∉ text) :
    Option.Rel SameEnding (block.ending? text.toCrlf) (block.ending? text) := by
  have hlines : ∀ {close? : Text → Option (Text × Text)}
      (hclose : ∀ {text body last}, close? text = some (body, last) →
        ∃ rest, text = body ++ (last ++ rest)),
      ∀ ending ∈ linesEnding? close? text, ∀ line ∈ ending.lines, line.IsLine ∧ '\r' ∉ line := by
    intro close? hclose ending hending line hline
    exact ⟨isLine_of_mem_linesEnding? hending hline, not_mem_of_sublist
      (eq_append_of_linesEnding? hclose hending) (flatten_lines_linesEnding? hending) htext hline⟩
  cases block with
  | heredoc label =>
    have hword : label.terminator.IsUnbroken := hblock _ List.mem_cons_self
    rw [OpenBlock.ending?, OpenBlock.ending?,
      linesEnding?_toCrlf (heredocClose?_toCrlf hword) htext]
    exact rel_map_toCrlf (hlines eq_append_of_heredocClose?)
  | delimited form =>
    rw [OpenBlock.ending?, OpenBlock.ending?]
    cases form with
    | string opener closer escape =>
      have hcloser : closer.IsUnbroken := hblock _ (by simp [tokens, Delimited.tokens])
      have hescape : ∀ token ∈ escape, Text.IsUnbroken token := by
        intro token htoken
        exact hblock _ (by simp [tokens, Delimited.tokens, Option.mem_def.mp htoken])
      rw [Delimited.ending?, Delimited.ending?, stringBody?_toCrlf hcloser hescape]
      exact rel_closedBy hcloser _
    | line opener =>
      have hopener : opener.IsUnbroken := hblock _ List.mem_cons_self
      rw [Delimited.ending?, Delimited.ending?, chainEnding_toCrlf hopener]
      refine .some ⟨Ending.read_toCrlf _, ?_⟩
      dsimp only [Ending.toCrlf]
      rw [List.map_map]
      refine forall₂_sameLine_map fun line hline ↦ ?_
      exact (isLine_of_mem_chainEnding hline).sameLine_dropMark
        (not_mem_of_sublist (eq_append_of_chainEnding opener text)
          (flatten_lines_chainEnding opener text) htext hline) opener
    | comment opener closer margin =>
      exact rel_commentEnding? ⟨List.not_mem_nil, List.not_mem_nil⟩
        (hblock _ (by simp [tokens, Delimited.tokens])) htext margin
    | doubled quote | raw openers quote =>
      have hquote : quote.IsUnbroken := hblock _ List.mem_cons_self
      rw [Delimited.ending?, Delimited.ending?, doubledBody?_toCrlf hquote]
      exact rel_closedBy hquote _
    | anchored opener closer =>
      have hcloser : closer.IsUnbroken := hblock _ (by simp [tokens, Delimited.tokens])
      rw [Delimited.ending?, Delimited.ending?,
        linesEnding?_toCrlf (anchoredClose?_toCrlf hcloser) htext]
      exact rel_map_toCrlf (hlines eq_append_of_anchoredClose?)
    | nested opener closer margin =>
      exact rel_commentEnding? (hblock _ List.mem_cons_self)
        (hblock _ (by simp [tokens, Delimited.tokens])) htext margin
    | fence mark =>
      rw [Delimited.ending?, Delimited.ending?, fenceEnding?_toCrlf (hblock _ List.mem_cons_self)]
      refine rel_map_toCrlf ?_
      intro ending hending line hline
      rw [lines_fenceEnding? hending] at hline
      exact absurd hline List.not_mem_nil

end CommentBlocks
