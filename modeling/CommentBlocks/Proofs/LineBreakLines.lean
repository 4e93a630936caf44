import CommentBlocks.Proofs.ContentText
import CommentBlocks.Proofs.LineBreakText
import Mathlib.Data.List.Forall2

/-!
# Comments that differ in their line breaks

Single lines of two texts that break lines in different ways are compared by `SameLine`. It is not
quite the case that one is `toCrlf` of the other, since a margin at the end of its line takes the
character behind it along, and that may be the carriage return.

`SameLine` is kept by everything that is done to a line: taking off a margin, trimming, removing
indentation. What is blank is blank in both, so the same lines are dropped and the same indentation
is found to be common. In the end the layouts differ in their line breaks and in nothing else
(`map_toLf_layout?`).
-/

namespace CommentBlocks

/-! ## Single lines -/

/-- One line of two texts that differ in how they break lines. -/
inductive SameLine : Text → Text → Prop where
  /-- A line without a break. -/
  | last {body : Text} : body.IsUnbroken → SameLine body body
  /-- A line with its break. -/
  | ended {body : Text} : body.IsUnbroken → SameLine (body ++ ['\r', '\n']) (body ++ ['\n'])
  /-- A line feed alone, when the carriage return has gone with the margin. -/
  | feed : SameLine ['\n'] ['\n']

theorem Text.IsLine.sameLine {line : Text} (h : line.IsLine) (hreturn : '\r' ∉ line) :
    SameLine line.toCrlf line := by
  obtain ⟨body, hbody, rfl | rfl⟩ := h.cases hreturn
  · rw [Text.toCrlf_eq_self hbody.2]
    exact .last hbody
  · rw [Text.toCrlf_append, Text.toCrlf_eq_self hbody.2]
    exact .ended hbody

namespace SameLine

variable {wide narrow : Text}

/-- The line feed is all that remains of a line break, also when more text follows. -/
theorem toLf_append (h : SameLine wide narrow) (rest : Text) :
    Text.toLf (wide ++ rest) = narrow ++ Text.toLf rest := by
  cases h with
  | last hbody => exact Text.toLf_append hbody.1 rest
  | ended hbody =>
    rw [List.append_assoc, Text.toLf_append hbody.1, List.append_assoc]
    rfl
  | feed => exact Text.toLf_append (by decide) rest

theorem isBlank_eq (h : SameLine wide narrow) : wide.isBlank = narrow.isBlank := by
  cases h with
  | last => rfl
  | ended =>
    rw [Text.isBlank_append, Text.isBlank_append]
    rfl
  | feed => rfl

theorem exists_body (h : SameLine wide narrow) (hblank : narrow.isBlank = false) :
    ∃ body wideBreak narrowBreak, wide = body ++ wideBreak ∧ narrow = body ++ narrowBreak
      ∧ body.isBlank = false
      ∧ ∀ rest, rest <:+ body → SameLine (rest ++ wideBreak) (rest ++ narrowBreak) := by
  cases h with
  | last hbody =>
    refine ⟨wide, [], [], (List.append_nil _).symm, (List.append_nil _).symm, hblank, ?_⟩
    intro rest hrest
    rw [List.append_nil]
    exact .last (hbody.mono hrest.subset)
  | @ended body hbody =>
    refine ⟨body, _, _, rfl, rfl, ?_, fun rest hrest ↦ .ended (hbody.mono hrest.subset)⟩
    rw [Text.isBlank_append, Bool.and_eq_false_iff] at hblank
    exact hblank.resolve_right (by decide)
  | feed => exact absurd hblank (by decide)

end SameLine

/-! ## Indentation -/

namespace Text

variable {body : Text}

theorem exists_not_white (h : body.isBlank = false) : ∃ c ∈ body, ¬isWhiteSpace c = true := by
  rw [isBlank, List.all_eq_false] at h
  exact h

theorem indentWidth_append (h : body.isBlank = false) (rest : Text) :
    indentWidth (body ++ rest) = indentWidth body := by
  rw [indentWidth, indentWidth, List.takeWhile_append, if_neg]
  intro hlength
  obtain ⟨c, hc, hwhite⟩ := exists_not_white h
  have hall := (List.takeWhile_prefix isWhiteSpace).eq_of_length hlength
  rw [← hall] at hc
  exact hwhite (List.all_eq_true.mp List.all_takeWhile c hc)

theorem trimStart_append (h : body.isBlank = false) (rest : Text) :
    trimStart (body ++ rest) = trimStart body ++ rest := by
  rw [trimStart, trimStart, List.dropWhile_append, if_neg]
  rw [List.isEmpty_iff, List.dropWhile_eq_nil_iff]
  intro hall
  obtain ⟨c, hc, hwhite⟩ := exists_not_white h
  exact hwhite (hall c hc)

theorem dropIndent_append (h : body.isBlank = false) (width : Nat) (rest : Text) :
    dropIndent width (body ++ rest) = dropIndent width body ++ rest := by
  induction body generalizing width with
  | nil => exact absurd h (by decide)
  | cons c body ih =>
    rw [List.cons_append, dropIndent, dropIndent]
    split
    · next hspace =>
      have hwhite : isWhiteSpace c = true := (Bool.and_eq_true_iff.mp hspace).1
      rw [isBlank, List.all_cons, hwhite, Bool.true_and] at h
      exact ih h _
    · rfl

theorem dropIndent_suffix (width : Nat) (line : Text) : dropIndent width line <:+ line := by
  fun_induction dropIndent width line with
  | case1 => exact List.suffix_refl _
  | case2 width c rest _ ih => exact ih.trans (List.suffix_cons _ _)
  | case3 => exact List.suffix_refl _

end Text

namespace SameLine

variable {wide narrow : Text}

theorem indentWidth_eq (h : SameLine wide narrow) (hblank : narrow.isBlank = false) :
    wide.indentWidth = narrow.indentWidth := by
  obtain ⟨body, wideBreak, narrowBreak, rfl, rfl, hbody, -⟩ := h.exists_body hblank
  rw [Text.indentWidth_append hbody, Text.indentWidth_append hbody]

theorem trimStart (h : SameLine wide narrow) (hblank : narrow.isBlank = false) :
    SameLine wide.trimStart narrow.trimStart := by
  obtain ⟨body, wideBreak, narrowBreak, rfl, rfl, hbody, hsame⟩ := h.exists_body hblank
  rw [Text.trimStart_append hbody, Text.trimStart_append hbody]
  exact hsame _ (List.dropWhile_suffix _)

theorem outdent (h : SameLine wide narrow) (indent : Nat) :
    SameLine (outdent indent wide) (outdent indent narrow) := by
  rw [CommentBlocks.outdent, CommentBlocks.outdent, h.isBlank_eq]
  split
  · exact h
  · next hblank =>
    rw [Bool.not_eq_true] at hblank
    obtain ⟨body, wideBreak, narrowBreak, rfl, rfl, hbody, hsame⟩ := h.exists_body hblank
    rw [Text.dropIndent_append hbody, Text.dropIndent_append hbody]
    exact hsame _ (Text.dropIndent_suffix _ _)

end SameLine

/-! ## Margins -/

namespace Text

theorem dropMark_of_mark {marks line rest : Text} {mark next : Char}
    (h : line.dropWhile isSpace = mark :: next :: rest) :
    dropMark marks line =
      if mark ∈ marks then
        if next = '\n' then ['\n'] else if isWhiteSpace next then rest else line
      else line := by
  rw [dropMark, h]

theorem dropMark_of_feed {marks line : Text} (h : line.dropWhile isSpace = ['\n']) :
    dropMark marks line = line := by
  rw [dropMark, h]

end Text

/-- **Margins are taken off alike.** A margin that ends its line takes the carriage return with it
and leaves the line feed, which is what it leaves where there is no carriage return. -/
theorem SameLine.dropMark {body : Text} (hbody : body.IsUnbroken) (marks : Text) :
    SameLine (Text.dropMark marks (body ++ ['\r', '\n']))
      (Text.dropMark marks (body ++ ['\n'])) := by
  have hkept : SameLine (body ++ ['\r', '\n']) (body ++ ['\n']) := .ended hbody
  cases hdrop : body.dropWhile isSpace with
  | nil =>
    -- the line is blank, and what is left behind its spaces is the line feed
    have hspaces := List.dropWhile_eq_nil_iff.mp hdrop
    rw [Text.dropMark_of_feed (List.dropWhile_append_of_pos hspaces),
      Text.dropMark_of_feed (List.dropWhile_append_of_pos hspaces)]
    exact hkept
  | cons mark others =>
    have happend : ∀ lineBreak : Text,
        (body ++ lineBreak).dropWhile isSpace = mark :: (others ++ lineBreak) := by
      intro lineBreak
      rw [List.dropWhile_append, hdrop]
      rfl
    cases others with
    | nil =>
      rw [Text.dropMark_of_mark (happend ['\r', '\n']), Text.dropMark_of_mark (happend ['\n'])]
      split
      · exact .feed
      · exact hkept
    | cons next rest =>
      have hsuffix : mark :: next :: rest <:+ body := hdrop ▸ List.dropWhile_suffix _
      have hnext : next ≠ '\n' := by
        rintro rfl
        exact hbody.2 (hsuffix.subset (List.mem_cons_of_mem _ List.mem_cons_self))
      have hrest : Text.IsUnbroken rest :=
        hbody.mono fun c hc ↦
          hsuffix.subset (List.mem_cons_of_mem _ (List.mem_cons_of_mem _ hc))
      rw [Text.dropMark_of_mark (happend ['\r', '\n']), Text.dropMark_of_mark (happend ['\n']),
        if_neg hnext, if_neg hnext]
      split
      · split
        · exact .ended hrest
        · exact hkept
      · exact hkept

theorem Text.IsLine.sameLine_dropMark {line : Text} (h : line.IsLine) (hreturn : '\r' ∉ line)
    (marks : Text) : SameLine (dropMark marks line.toCrlf) (dropMark marks line) := by
  obtain ⟨body, hbody, rfl | rfl⟩ := h.cases hreturn
  · rw [toCrlf_eq_self hbody.2]
    exact .last (hbody.mono (dropMark_sublist marks line).subset)
  · rw [toCrlf_append, toCrlf_eq_self hbody.2]
    exact .dropMark hbody marks

theorem Text.IsLine.sameLine_dropMargin {line : Text} (h : line.IsLine) (hreturn : '\r' ∉ line)
    (margin : Option Text) :
    SameLine (dropMargin margin line.toCrlf) (dropMargin margin line) := by
  cases margin with
  | none => exact h.sameLine hreturn
  | some marks => exact h.sameLine_dropMark hreturn marks

/-! ## Layout -/

section Layout

variable {wide narrow : List Text}

theorem forall₂_dropWhile_isBlank (h : List.Forall₂ SameLine wide narrow) :
    List.Forall₂ SameLine (wide.dropWhile Text.isBlank) (narrow.dropWhile Text.isBlank) := by
  induction h with
  | nil => exact .nil
  | cons hline hlines ih =>
    rw [List.dropWhile_cons, List.dropWhile_cons, hline.isBlank_eq]
    split
    · exact ih
    · exact .cons hline hlines

theorem forall₂_trimBlankLines (h : List.Forall₂ SameLine wide narrow) :
    List.Forall₂ SameLine (trimBlankLines wide) (trimBlankLines narrow) := by
  have hfront := List.forall₂_reverse_iff.mpr (forall₂_dropWhile_isBlank h)
  exact List.forall₂_reverse_iff.mpr (forall₂_dropWhile_isBlank hfront)

theorem commonIndent_eq (h : List.Forall₂ SameLine wide narrow) :
    commonIndent wide = commonIndent narrow := by
  have hwidths : (wide.filter fun line ↦ !line.isBlank).map Text.indentWidth
      = (narrow.filter fun line ↦ !line.isBlank).map Text.indentWidth := by
    induction h with
    | nil => rfl
    | cons hline hlines ih =>
      rw [List.filter_cons, List.filter_cons, hline.isBlank_eq]
      split
      · next hblank =>
        rw [Bool.not_eq_true'] at hblank
        rw [List.map_cons, List.map_cons, hline.indentWidth_eq hblank, ih]
      · exact ih
  rw [commonIndent, commonIndent, hwidths]

theorem toLf_flatten_outdent (h : List.Forall₂ SameLine wide narrow) (indent : Nat) :
    Text.toLf (wide.map (outdent indent)).flatten = (narrow.map (outdent indent)).flatten := by
  induction h with
  | nil => rfl
  | cons hline hlines ih =>
    rw [List.map_cons, List.flatten_cons, (hline.outdent indent).toLf_append, ih, List.map_cons,
      List.flatten_cons]

/-- **Layouts of the same lines differ in their line breaks only.** -/
theorem map_toLf_layout? (h : List.Forall₂ SameLine wide narrow) :
    (layout? wide).map Text.toLf = layout? narrow := by
  have htrim := forall₂_trimBlankLines h
  unfold layout?
  cases hnarrow : trimBlankLines narrow with
  | nil =>
    rw [hnarrow, List.forall₂_nil_right_iff] at htrim
    rw [htrim, Option.map_none]
  | cons first others =>
    rw [hnarrow, List.forall₂_cons_right_iff] at htrim
    obtain ⟨wideFirst, wideOthers, hfirst, hothers, hwide⟩ := htrim
    have htrimmed := hfirst.trimStart (isBlank_of_trimBlankLines hnarrow)
    rw [hwide]
    dsimp only
    rw [Option.map_some, htrimmed.toLf_append, commonIndent_eq hothers,
      toLf_flatten_outdent hothers]

end Layout

end CommentBlocks
