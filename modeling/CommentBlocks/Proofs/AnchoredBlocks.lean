import CommentBlocks.Proofs.FirstPlaces

/-!
# Blocks delimited by whole lines

The delimiters of an anchored block are lines. They begin in column zero, and behind them comes the
line break and nothing else; only the closing one may also end the text. Whatever comes close to a
delimiter is content, or is no delimiter at all: one that is indented, that has a space behind it,
or that ends with a carriage return alone.

A reader does not look back at the text before it, so it knows of column zero by a counter only.
`Position.character_advanceText_eq_zero_iff` says what the counter has to do with the text: it is
zero at the start and right behind a line feed, and nowhere else. A reader does not cut a line out
before it looks for a delimiter in it either. It reads the delimiter and goes on from there, which
comes to the same because no delimiter holds a line feed.
-/

namespace CommentBlocks

/-! ## Column zero -/

theorem Position.character_advanceText_eq_zero_iff {p : Position} (hp : p.character = 0)
    (text : Text) :
    (p.advanceText text).character = 0 ↔ text = [] ∨ text.getLast? = some '\n' := by
  rcases List.eq_nil_or_concat' text with rfl | ⟨front, c, rfl⟩
  · exact iff_of_true hp (Or.inl rfl)
  · have hlast : (p.advanceText (front ++ [c])).character = 0 ↔ c = '\n' := by
      rw [advanceText_append, advanceText_cons, advanceText_nil, advance]
      split
      · next hc => exact iff_of_true rfl hc
      · next hc => exact iff_of_false (Nat.succ_ne_zero _) hc
    have hne : front ++ [c] ≠ [] := List.append_ne_nil_of_right_ne_nil _ (List.cons_ne_nil _ _)
    rw [hlast, or_iff_right hne, List.getLast?_concat, Option.some.injEq]

namespace Source

variable {source : Source}

/-- A line of the source begins where `rest` is unread: at the start of the source, or right behind
a line feed. -/
def BeginsLine (source : Source) (rest : Text) : Prop :=
  ∃ front, source.text = front ++ rest ∧ (front = [] ∨ front.getLast? = some '\n')

/-- **The column is zero exactly where a line begins**, in a source that begins in column zero. -/
theorem character_positionAt_eq_zero_iff (hstart : source.start.character = 0) (index : Nat) :
    (source.positionAt index).character = 0 ↔ source.BeginsLine (source.text.drop index) := by
  rw [positionAt, Position.character_advanceText_eq_zero_iff hstart]
  constructor
  · intro hfront
    exact ⟨source.text.take index, (List.take_append_drop _ _).symm, hfront⟩
  · rintro ⟨front, htext, hfront⟩
    obtain rfl : source.text.take index = front :=
      List.append_cancel_right ((List.take_append_drop _ _).trans htext)
    exact hfront

end Source

/-! ## The opening line -/

/-- The ways to break a line. -/
def lineBreaks : List Text := [['\n'], ['\r', '\n']]

theorem Text.lineBreak?_eq_some_iff_isPrefix {text lineBreak : Text} :
    lineBreak? text = some lineBreak ↔ lineBreak ∈ lineBreaks ∧ lineBreak <+: text := by
  constructor
  · intro h
    obtain ⟨hline, hmem⟩ := lineBreak?_eq_some_iff.mp h
    exact ⟨hmem, hline ▸ ⟨_, splitLine_append text⟩⟩
  · rintro ⟨hmem, rest, rfl⟩
    rw [lineBreaks, List.mem_cons, List.mem_singleton] at hmem
    rcases hmem with rfl | rfl
    · rfl
    · rfl

section Opening

variable {opener closer lineBreak : Text} {cursor inside : Cursor} {opened : OpenBlock}

theorem passes_openBlock_anchored
    (h : cursor.openBlock (.delimited (.anchored opener closer)) = (some opened, inside)) :
    cursor.position.character = 0 ∧ opened = .delimited (.anchored opener closer)
      ∧ ∃ lineBreak ∈ lineBreaks, cursor.Passes inside (opener ++ lineBreak) := by
  unfold Cursor.openBlock at h
  split at h
  · simp at h
  · next body last hopening =>
    rw [Prod.mk.injEq, Option.some.injEq] at h
    obtain ⟨rfl, rfl⟩ := h
    obtain ⟨hcolumn, hbreak, hopened, rfl⟩ := anchoredOpening_eq_opened hopening
    obtain ⟨rest, -, hline⟩ := Option.bind_eq_some_iff.mp hbreak
    have hrest := (Block.openingAt_opened hopening).2
    exact ⟨hcolumn, hopened, last, (Text.lineBreak?_eq_some_iff_isPrefix.mp hline).1,
      rfl, rfl, rfl, hrest⟩

theorem isSome_openBlock_anchored (hopener : opener ≠ []) (hcolumn : cursor.position.character = 0)
    (hbreak : lineBreak ∈ lineBreaks) (hline : opener ++ lineBreak <+: cursor.rest) :
    (cursor.openBlock (.delimited (.anchored opener closer))).1.isSome = true := by
  obtain ⟨rest, hrest⟩ := hline
  have hfound : (Text.afterToken? opener cursor.here.rest).bind Text.lineBreak?
      = some lineBreak := by
    rw [List.append_assoc] at hrest
    refine Option.bind_eq_some_iff.mpr ⟨lineBreak ++ rest, ?_, ?_⟩
    · exact Text.afterToken?_eq_some_iff.mpr ⟨hopener, hrest.symm⟩
    · exact Text.lineBreak?_eq_some_iff_isPrefix.mpr ⟨hbreak, List.prefix_append _ _⟩
  have hopening : Block.openingAt cursor.here (.delimited (.anchored opener closer))
      = .opened (.delimited (.anchored opener closer)) opener lineBreak := by
    have hzero : ¬cursor.here.position.character ≠ 0 := not_not_intro hcolumn
    rw [Block.openingAt, anchoredOpening, if_neg hzero, hfound]
  rw [Cursor.openBlock, hopening]
  rfl

end Opening

/-! ## The closing line -/

/-- The line is `token` and nothing else. -/
def Text.IsWholeLine (token line : Text) : Prop := ∃ lineEnd ∈ lineEnds, line = token ++ lineEnd

instance (token line : Text) : Decidable (Text.IsWholeLine token line) :=
  inferInstanceAs (Decidable (∃ lineEnd ∈ _, line = token ++ lineEnd))

section Closing

variable {closer text body last : Text}

theorem isWholeLine_of_anchoredClose? (hfeed : '\n' ∉ closer)
    (h : anchoredClose? closer text = some (body, last)) :
    Text.IsWholeLine closer (Text.splitLine text).1 ∧ body ++ last = (Text.splitLine text).1 := by
  obtain ⟨rest, hrest, hend⟩ := Option.bind_eq_some_iff.mp h
  obtain ⟨hmem, hread⟩ := splitLine_of_lineEnd? hend
  rw [(Text.afterToken?_eq_some_iff.mp hrest).2, Text.splitLine_append_of_not_mem hfeed]
  exact ⟨⟨_, hmem, rfl⟩, hread⟩

theorem not_isWholeLine_of_anchoredClose? (hne : closer ≠ []) (hfeed : '\n' ∉ closer)
    (h : anchoredClose? closer text = none) :
    ¬Text.IsWholeLine closer (Text.splitLine text).1 := by
  rintro ⟨lineEnd, hmem, hline⟩
  -- the text begins with the closer, and its first line goes on with what follows there
  obtain ⟨rest, rfl⟩ : ∃ rest, text = closer ++ rest := by
    refine ⟨lineEnd ++ (Text.splitLine text).2, ?_⟩
    rw [← List.append_assoc, ← hline, Text.splitLine_append]
  have hafter : Text.afterToken? closer (closer ++ rest) = some rest :=
    Text.afterToken?_eq_some_iff.mpr ⟨hne, rfl⟩
  rw [anchoredClose?, hafter, Option.bind_some] at h
  rw [Text.splitLine_append_of_not_mem hfeed, List.append_right_inj] at hline
  exact not_mem_lineEnds_of_lineEnd? h (hline ▸ hmem)

end Closing

/-! ## Reading with a cursor -/

/-- **An anchored block is delimited by whole lines.** In a source that begins in column zero, let
`cursor` be any cursor of any run. The block begins there exactly if a line of the source begins
there and the opener and a line break come next; the cursor is then behind them. From there it
closes exactly if one of the lines is the closer and nothing else; its content is then the lines
before the first of them, as they stand, and the cursor is behind that line. -/
theorem anchored_block_fills_lines {source : Source} (hstart : source.start.character = 0)
    {steps : List Cursor.Step} {cursor : Cursor} (hcursor : cursor ∈ (source.run steps).cursors)
    {opener closer : Text} (hopener : opener ≠ []) (hcloser : closer ≠ [])
    (hfeed : '\n' ∉ closer) :
    let form : Delimited := .anchored opener closer
    ((cursor.openBlock (.delimited form)).1.isSome = true
        ↔ source.BeginsLine cursor.rest
          ∧ ∃ lineBreak ∈ lineBreaks, opener ++ lineBreak <+: cursor.rest)
      ∧ ∀ opened inside, cursor.openBlock (.delimited form) = (some opened, inside) →
        opened = .delimited form
          ∧ (∃ lineBreak ∈ lineBreaks, cursor.Passes inside (opener ++ lineBreak))
          ∧ ((inside.closeBlock opened).1.wellTerminated = true
            ↔ ∃ line ∈ inside.rest.lines, closer.IsWholeLine line)
          ∧ ∀ n,
            IsLeast {n | ∃ line, inside.rest.lines[n]? = some line ∧ closer.IsWholeLine line} n →
            inside.ClosesWith opened (inside.rest.lines.take n)
              (inside.rest.lines.take (n + 1)).flatten := by
  intro form
  have hcolumn : cursor.position.character = 0 ↔ source.BeginsLine cursor.rest := by
    obtain ⟨index, -, rfl⟩ := Source.exists_index_of_mem_run hcursor
    exact source.character_positionAt_eq_zero_iff hstart index.here
  constructor
  · constructor
    · intro hsome
      obtain ⟨opened, hopened⟩ := Option.isSome_iff_exists.mp hsome
      obtain ⟨hzero, -, lineBreak, hbreak, hpasses⟩ :=
        passes_openBlock_anchored (Prod.ext hopened rfl)
      obtain ⟨rest, hrest⟩ := hpasses.rest
      exact ⟨hcolumn.mp hzero, lineBreak, hbreak, rest, hrest.symm⟩
    · rintro ⟨hbegins, lineBreak, hbreak, hline⟩
      exact isSome_openBlock_anchored hopener (hcolumn.mpr hbegins) hbreak hline
  · intro opened inside hopen
    obtain ⟨-, rfl, hpasses⟩ := passes_openBlock_anchored hopen
    exact ⟨rfl, hpasses, inside.closeBlock_of_closing_line rfl
      (isWholeLine_of_anchoredClose? hfeed) (not_isWholeLine_of_anchoredClose? hcloser hfeed)⟩

/-- On the second line of a source. A closer with something behind it or before it is content. -/
theorem anchored_block_fills_lines_near_misses :
    let source : Source := ⟨"x\n=begin\r\n=end x\n =end\n=end".toList, ⟨"a"⟩, ⟨7, 0, 90⟩⟩
    let cursor : Cursor := source.cursor.takeLine.2
    let form : Delimited := .anchored "=begin".toList "=end".toList
    ∃ inside, cursor.openBlock (.delimited form) = (some (.delimited form), inside)
      ∧ inside.ClosesWith (.delimited form) ["=end x\n".toList, " =end\n".toList]
        "=end x\n =end\n=end".toList := by
  intro source cursor form
  have hcursor : cursor ∈ (source.run [⟨0, .takeLine⟩]).cursors :=
    List.mem_cons_of_mem _ List.mem_cons_self
  have hopener : "=begin".toList ≠ [] := by decide
  have hcloser : "=end".toList ≠ [] := by decide
  have hfeed : '\n' ∉ "=end".toList := by decide
  obtain ⟨hbegins, hcloses⟩ := anchored_block_fills_lines rfl hcursor hopener hcloser hfeed
  have hline : source.BeginsLine cursor.rest
      ∧ ∃ lineBreak ∈ lineBreaks, "=begin".toList ++ lineBreak <+: cursor.rest :=
    ⟨⟨"x\n".toList, rfl, Or.inr rfl⟩, "\r\n".toList, by decide, by decide⟩
  obtain ⟨opened, hopened⟩ := Option.isSome_iff_exists.mp (hbegins.mpr hline)
  let inside : Cursor := (cursor.openBlock (.delimited form)).2
  have hopen : cursor.openBlock (.delimited form) = (some opened, inside) := Prod.ext hopened rfl
  obtain ⟨rfl, -, -, hfirst⟩ := hcloses opened inside hopen
  have hlines : inside.rest.lines = ["=end x\n".toList, " =end\n".toList, "=end".toList] := by
    decide +kernel
  rw [hlines] at hfirst
  refine ⟨inside, hopen, hfirst 2 ⟨⟨_, rfl, by decide⟩, ?_⟩⟩
  rintro n ⟨line, hat, hwhole⟩
  by_contra hless
  have hnear : n = 0 ∨ n = 1 := by omega
  rcases hnear with rfl | rfl
  · obtain rfl := Option.some_inj.mp hat
    exact absurd hwhole (by decide)
  · obtain rfl := Option.some_inj.mp hat
    exact absurd hwhole (by decide)

end CommentBlocks
