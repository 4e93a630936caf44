import CommentBlocks.Proofs.FirstPlaces

/-!
# Where fenced strings end

A fenced string may hold its own mark. The mark closes it only at the end of a line, with nothing
but white space behind it, and marks may overlap: of four quotes at the end of a line the last three
are the mark that closes, and the first is content.

So a reader that has met a mark must not go on behind it when it turns out not to close. It goes
back to where the mark began and on by one character, and in this way tries every place there is.
That is why the string ends at the first place where a mark closes, and not at the first that a
search from mark to mark would come to.
-/

namespace CommentBlocks

variable {mark text : Text}

/-- A mark comes next that closes a fence: from its end to the next line feed, or to the end of the
text, there is nothing but white space. -/
structure ClosesFence (mark text : Text) : Prop where
  /-- The mark comes next. -/
  token : mark <+: text
  /-- White space follows it on its line. -/
  blank : ((text.drop mark.length).takeWhile (· != '\n')).all isWhiteSpace = true

instance (mark text : Text) : Decidable (ClosesFence mark text) :=
  decidable_of_iff
    (mark <+: text ∧ ((text.drop mark.length).takeWhile (· != '\n')).all isWhiteSpace = true)
    ⟨fun h ↦ ⟨h.1, h.2⟩, fun h ↦ ⟨h.token, h.blank⟩⟩

/-- A line is blank if it is blank up to its line feed, which is white space itself. -/
theorem Text.isBlank_splitLine (text : Text) :
    (splitLine text).1.isBlank = (text.takeWhile (· != '\n')).all isWhiteSpace := by
  induction text with
  | nil => rfl
  | cons c text ih =>
    by_cases hc : c = '\n'
    · subst hc
      rfl
    · have hkeep : (c :: text).takeWhile (· != '\n') = c :: text.takeWhile (· != '\n') :=
        List.takeWhile_cons_of_pos (bne_iff_ne.mpr hc)
      rw [splitLine, if_neg hc, hkeep, List.all_cons, ← ih]
      rfl

theorem closesFence_iff (hmark : mark ≠ []) :
    ClosesFence mark text ↔ ∃ after, Text.afterToken? mark text = some after
      ∧ (Text.splitLine after).1.isBlank = true := by
  constructor
  · rintro ⟨⟨after, rfl⟩, hblank⟩
    rw [List.drop_left] at hblank
    refine ⟨after, Text.afterToken?_eq_some_iff.mpr ⟨hmark, rfl⟩, ?_⟩
    rw [Text.isBlank_splitLine, hblank]
  · rintro ⟨after, hafter, hblank⟩
    obtain ⟨-, rfl⟩ := Text.afterToken?_eq_some_iff.mp hafter
    refine ⟨List.prefix_append _ _, ?_⟩
    rw [List.drop_left, ← Text.isBlank_splitLine, hblank]

/-- **A fenced string is read to the end of the line of the first mark that closes.** -/
theorem finds_fenceEnding? (hmark : mark ≠ []) (text : Text) :
    Finds (fun n ↦ ClosesFence mark (text.drop n))
      (fun n ending ↦ ending.lines = []
        ∧ ending.read = text.take n ++ (mark ++ (Text.splitLine (text.drop (n + mark.length))).1))
      (fenceEnding? mark text) := by
  induction text with
  | nil =>
    intro n h
    rw [List.drop_nil] at h
    exact hmark (List.prefix_nil.mp h.token)
  | cons c text ih =>
    by_cases hcloses : ClosesFence mark (c :: text)
    · obtain ⟨after, hafter, hblank⟩ := (closesFence_iff hmark).mp hcloses
      have htext := (Text.afterToken?_eq_some_iff.mp hafter).2
      rw [fenceEnding?_of_mark hafter hblank]
      refine .first hcloses ⟨rfl, ?_⟩
      rw [htext, Nat.zero_add, List.drop_left]
      rfl
    · have hopen : ∀ after, Text.afterToken? mark (c :: text) = some after →
          ¬(Text.splitLine after).1.isBlank = true :=
        fun after hafter hblank ↦ hcloses ((closesFence_iff hmark).mpr ⟨after, hafter, hblank⟩)
      rw [fenceEnding?_of_no_mark hopen]
      -- one character is passed over, whether a mark began with it or not
      refine .next ih hcloses ?_
      rintro n ending ⟨hlines, hread⟩
      refine ⟨hlines, ?_⟩
      rw [Nat.add_right_comm]
      exact congrArg (c :: ·) hread

/-- **A fenced string ends with the first mark that ends its line.** It closes exactly if there is
an offset where the mark stands and nothing but white space follows it on its line; offsets where
marks overlap count. It is then read to the end of the line of the mark at the least such offset,
line feed included, and has no content. -/
theorem fence_ends_at_first_line_end {mark : Text} (hmark : mark ≠ []) (cursor : Cursor) :
    let opened : OpenBlock := .delimited (.fence mark)
    ((cursor.closeBlock opened).1.wellTerminated = true
        ↔ ∃ offset, ClosesFence mark (cursor.rest.drop offset))
      ∧ ∀ offset, IsLeast {i | ClosesFence mark (cursor.rest.drop i)} offset →
        let line := (Text.splitLine (cursor.rest.drop (offset + mark.length))).1
        cursor.ClosesWith opened [] (cursor.rest.take offset ++ (mark ++ line)) :=
  Cursor.closeBlock_of_finds (finds_fenceEnding? hmark cursor.rest)

/-- Three quotes with a letter behind them do not close, and of the next four the last three do. -/
theorem fence_ends_at_first_line_end_four_quotes :
    let text : Text := "\"\"\"a\n\"\"\"\" \r\nb".toList
    let cursor : Cursor := Place.cursor ⟨.zero, text⟩
    let opened : OpenBlock := .delimited (.fence "\"\"\"".toList)
    cursor.ClosesWith opened [] "\"\"\"a\n\"\"\"\" \r\n".toList
      ∧ (cursor.closeBlock opened).2.rest = ['b'] := by
  intro text cursor opened
  have hmark : "\"\"\"".toList ≠ [] := by decide
  have hlow : ∀ i < 6, ¬ClosesFence "\"\"\"".toList (text.drop i) := by decide
  have hhere : ClosesFence "\"\"\"".toList (text.drop 6) := by decide
  have hleast := Finds.isLeast hhere hlow
  have hcloses := (fence_ends_at_first_line_end hmark cursor).2 6 hleast
  exact ⟨hcloses, hcloses.2.rest_eq rfl⟩

end CommentBlocks
