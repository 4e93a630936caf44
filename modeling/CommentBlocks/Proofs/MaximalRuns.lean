import CommentBlocks.Proofs.FirstPlaces
import CommentBlocks.Proofs.LineBreakText

/-!
# How far a run of line comments goes

Line comments that follow each other make one block. After each line the reader looks ahead: it
skips the indentation of the next line and tries the opener, and if the opener is not there it goes
back to the start of that line. A reader that kept what it had skipped would take the indentation
from the first line of code, and one that skipped blank lines too would join comments that stand
apart.

What the reader does is told here by the lines alone. A line goes on with the run if the opener
comes first behind its indentation (`ContinuesRun`), and the run is the longest front of the lines
that all do. The one thing to be seen is that looking ahead never leaves the next line: indentation
does not run across a line feed (`splitLine_dropWhile_isSpace`), and the opener has none.
-/

namespace CommentBlocks

variable {opener text more : Text}

/-! ## Looking ahead -/

theorem splitLine_dropWhile_isSpace (text : Text) :
    Text.splitLine (text.dropWhile isSpace)
      = ((Text.splitLine text).1.dropWhile isSpace, (Text.splitLine text).2) := by
  induction text with
  | nil => rfl
  | cons c text ih =>
    by_cases hc : c = '\n'
    · subst hc
      rfl
    · by_cases hspace : isSpace c = true
      · rw [List.dropWhile_cons_of_pos hspace, ih, Text.splitLine, if_neg hc,
          List.dropWhile_cons_of_pos hspace]
      · rw [List.dropWhile_cons_of_neg hspace, Text.splitLine, if_neg hc,
          List.dropWhile_cons_of_neg hspace]

/-- The line goes on with a run of line comments: the opener follows its indentation. -/
def ContinuesRun (opener line : Text) : Prop := opener <+: line.dropWhile isSpace

instance (opener line : Text) : Decidable (ContinuesRun opener line) :=
  inferInstanceAs (Decidable (_ <+: _))

/-- The line without its indentation and the opener behind it. -/
def behindOpener (opener line : Text) : Text := (line.dropWhile isSpace).drop opener.length

/-- An opener that is found ahead is found on the next line, and what stands behind it is the rest
of that line. -/
theorem splitLine_of_opener (hfeed : '\n' ∉ opener)
    (h : Text.afterToken? opener (text.dropWhile isSpace) = some more) :
    (Text.splitLine text).1 = text.takeWhile isSpace ++ (opener ++ (Text.splitLine more).1)
      ∧ (Text.splitLine text).2 = (Text.splitLine more).2
      ∧ ContinuesRun opener (Text.splitLine text).1
      ∧ behindOpener opener (Text.splitLine text).1 = (Text.splitLine more).1 := by
  have hahead : Text.splitLine (text.dropWhile isSpace)
      = (opener ++ (Text.splitLine more).1, (Text.splitLine more).2) := by
    rw [(Text.afterToken?_eq_some_iff.mp h).2, Text.splitLine_append_of_not_mem hfeed]
  have hsplit : Text.splitLine text
      = (text.takeWhile isSpace ++ (opener ++ (Text.splitLine more).1),
        (Text.splitLine more).2) := by
    have hspaces := Text.splitLine_append_of_not_mem (Text.not_mem_takeWhile_isSpace text)
      (text.dropWhile isSpace)
    rwa [List.takeWhile_append_dropWhile, hahead] at hspaces
  have hdrop : (Text.splitLine text).1.dropWhile isSpace = opener ++ (Text.splitLine more).1 := by
    rw [splitLine_dropWhile_isSpace] at hahead
    exact congrArg Prod.fst hahead
  refine ⟨?_, ?_, ⟨_, hdrop.symm⟩, ?_⟩
  · rw [hsplit]
  · rw [hsplit]
  · rw [behindOpener, hdrop, List.drop_left]

theorem not_continuesRun_of_no_opener (hne : opener ≠ [])
    (h : Text.afterToken? opener (text.dropWhile isSpace) = none) :
    ¬ContinuesRun opener (Text.splitLine text).1 := by
  rintro ⟨tail, htail⟩
  have hline : Text.splitLine (text.dropWhile isSpace)
      = (opener ++ tail, (Text.splitLine text).2) := by
    rw [splitLine_dropWhile_isSpace, htail]
  have hahead : text.dropWhile isSpace = opener ++ (tail ++ (Text.splitLine text).2) := by
    rw [← Text.splitLine_append (text.dropWhile isSpace), hline, List.append_assoc]
  rw [Text.afterToken?_eq_some_iff.mpr ⟨hne, hahead⟩] at h
  exact absurd h (Option.some_ne_none _)

/-! ## The lines of a run -/

/-- The lines that go on with a run, up to the first that does not. -/
def runLines (opener : Text) (lines : List Text) : List Text :=
  lines.takeWhile fun line ↦ ContinuesRun opener line

section RunLines

variable {line : Text}

theorem runLines_cons_of_pos (h : ContinuesRun opener line) (lines : List Text) :
    runLines opener (line :: lines) = line :: runLines opener lines :=
  List.takeWhile_cons_of_pos (decide_eq_true h)

theorem runLines_cons_of_neg (h : ¬ContinuesRun opener line) (lines : List Text) :
    runLines opener (line :: lines) = [] :=
  List.takeWhile_cons_of_neg (mt of_decide_eq_true h)

theorem take_length_runLines (opener : Text) (lines : List Text) :
    lines.take (runLines opener lines).length = runLines opener lines :=
  (List.prefix_iff_eq_take.mp (List.takeWhile_prefix _)).symm

theorem isGreatest_length_runLines (opener : Text) (lines : List Text) :
    IsGreatest {k | k ≤ lines.length ∧ ∀ line ∈ lines.take k, ContinuesRun opener line}
      (runLines opener lines).length := by
  constructor
  · refine ⟨(List.takeWhile_prefix _).length_le, ?_⟩
    rw [take_length_runLines]
    intro line hline
    exact of_decide_eq_true (List.all_eq_true.mp List.all_takeWhile line hline)
  · rintro k ⟨hk, hall⟩
    have hfront : runLines opener lines = lines.take k ++ runLines opener (lines.drop k) := by
      nth_rewrite 1 [← List.take_append_drop k lines]
      exact List.takeWhile_append_of_pos fun line hline ↦ decide_eq_true (hall line hline)
    rw [hfront, List.length_append, List.length_take_of_le hk]
    exact Nat.le_add_right _ _

end RunLines

/-- **A run takes in the lines that go on with it, up to the first that does not.** -/
theorem chainEnding_eq_runLines (hne : opener ≠ []) (hfeed : '\n' ∉ opener) (text : Text) :
    (chainEnding opener text).lines
        = (Text.splitLine text).1
          :: (runLines opener (Text.splitLine text).2.lines).map (behindOpener opener)
      ∧ (chainEnding opener text).read
        = (Text.splitLine text).1 ++ (runLines opener (Text.splitLine text).2.lines).flatten := by
  fun_induction chainEnding opener text with
  | case1 text line next hend =>
    have hnext : (Text.splitLine text).2 = [] := List.isEmpty_iff.mp hend
    rw [hnext]
    exact ⟨rfl, (List.append_nil _).symm⟩
  | case2 text line next hend hopener =>
    have hnext : (Text.splitLine text).2 ≠ [] := fun hnil ↦ hend (List.isEmpty_iff.mpr hnil)
    rw [Text.lines_of_ne_nil hnext,
      runLines_cons_of_neg (not_continuesRun_of_no_opener hne hopener)]
    exact ⟨rfl, rfl⟩
  | case3 text line next hend more hopener _ others ih =>
    obtain ⟨hlines, hread⟩ := ih
    obtain ⟨hline, hrest, hcontinues, hbehind⟩ := splitLine_of_opener hfeed hopener
    have hnext : (Text.splitLine text).2 ≠ [] := fun hnil ↦ hend (List.isEmpty_iff.mpr hnil)
    rw [Text.lines_of_ne_nil hnext, runLines_cons_of_pos hcontinues]
    constructor
    · rw [List.map_cons, hbehind, hrest, ← hlines]
    · rw [List.flatten_cons, hline, hrest]
      have hothers : others.body ++ others.last.getD [] = (Text.splitLine more).1
          ++ (runLines opener (Text.splitLine more).2.lines).flatten := hread
      simp only [Ending.read, List.append_assoc, hothers]
      rfl

/-- **A run of line comments is as long as it can be.** Cut the text behind the opener into lines.
The run takes in the first of them, and after it the greatest number of lines that all begin with
the opener behind their indentation. Its content is the first line and what stands behind the opener
on the others, each without its margin. It always closes, and leaves unread the lines after it, the
indentation of the first of them included. -/
theorem run_of_line_comments_is_maximal {opener : Text} (hne : opener ≠ []) (hfeed : '\n' ∉ opener)
    (cursor : Cursor) :
    let opened : OpenBlock := .delimited (.line opener)
    let first := (Text.splitLine cursor.rest).1
    let others := (Text.splitLine cursor.rest).2.lines
    ∃ k, IsGreatest {k | k ≤ others.length ∧ ∀ line ∈ others.take k, ContinuesRun opener line} k
      ∧ cursor.ClosesWith opened
        ((first :: (others.take k).map (behindOpener opener)).map (Text.dropMark opener))
        (first ++ (others.take k).flatten)
      ∧ (cursor.closeBlock opened).2.rest = (others.drop k).flatten := by
  intro opened first others
  obtain ⟨hlines, hread⟩ := chainEnding_eq_runLines hne hfeed cursor.rest
  have hending : opened.ending? cursor.rest
      = some { chainEnding opener cursor.rest with
          lines := (chainEnding opener cursor.rest).lines.map (Text.dropMark opener) } := rfl
  have hcloses := Cursor.closesWith_of_ending? hending
  refine ⟨(runLines opener others).length, isGreatest_length_runLines opener others, ?_⟩
  rw [take_length_runLines]
  have hrun : cursor.ClosesWith opened
      ((first :: (runLines opener others).map (behindOpener opener)).map (Text.dropMark opener))
      (first ++ (runLines opener others).flatten) := by
    rw [← hlines, ← hread]
    exact hcloses
  have hothers : others = runLines opener others ++ others.drop (runLines opener others).length :=
    List.prefix_append_drop (List.takeWhile_prefix _)
  refine ⟨hrun, hrun.2.rest_eq ?_⟩
  calc cursor.rest = first ++ others.flatten := by
        rw [Text.flatten_lines, Text.splitLine_append]
    _ = first ++ ((runLines opener others).flatten
          ++ (others.drop (runLines opener others).length).flatten) := by
        rw [← List.flatten_append, ← hothers]
    _ = _ := (List.append_assoc _ _ _).symm

/-- A line that is indented belongs to the run; a line of code does not, and keeps its
indentation. -/
theorem run_of_line_comments_is_maximal_before_code :
    let cursor : Cursor := Place.cursor ⟨.zero, "/ one\n\t // two\n  code // x".toList⟩
    let opened : OpenBlock := .delimited (.line "//".toList)
    cursor.ClosesWith opened ["one\n".toList, " two\n".toList] "/ one\n\t // two\n".toList
      ∧ (cursor.closeBlock opened).2.rest = "  code // x".toList := by
  intro cursor opened
  have hne : "//".toList ≠ [] := by decide
  have hfeed : '\n' ∉ "//".toList := by decide
  obtain ⟨k, hk, hcloses, hrest⟩ := run_of_line_comments_is_maximal hne hfeed cursor
  have hlow : 1 ≤ k := hk.2 ⟨by decide, by decide⟩
  have hhigh : k ≤ 2 := hk.1.1
  obtain rfl | rfl : k = 1 ∨ k = 2 := by omega
  · exact ⟨hcloses, hrest⟩
  · exact absurd hk.1.2 (by decide)

end CommentBlocks
