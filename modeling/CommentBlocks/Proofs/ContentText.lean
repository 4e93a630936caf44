import CommentBlocks.Comment.Layout
import CommentBlocks.Proofs.BlockText
import Mathlib.Data.List.Flatten
import Mathlib.Data.List.TakeWhile

/-!
# Where content comes from

On its way from the source to a comment, text is cut into lines, loses margins and indentation, and
is put together again. Nothing in this adds a character or moves one: what comes out is always a
subsequence of what went in. One step looks otherwise, since a margin that fills its line is
replaced by a constant line feed, but that line feed is the one that ended the line.

Two statements are used elsewhere. The lines of a block are a subsequence of the text it reads
(`OpenBlock.flatten_lines_sublist_read`), and a layout is a subsequence of the lines laid out
(`sublist_of_layout?`). That a layout begins with a character that is not white space belongs here
too, as it is the other half of what trimming does.
-/

open scoped List

namespace CommentBlocks

/-! ## Margins -/

theorem Text.dropMark_sublist (marks line : Text) : dropMark marks line <+ line := by
  unfold dropMark
  split
  · next mark next rest hdrop =>
    have hsuffix : mark :: next :: rest <+ line := hdrop ▸ List.dropWhile_sublist _
    split
    · split
      · next hnext =>
        -- the line feed that is left is the one that stood there
        rw [hnext] at hsuffix
        exact (List.singleton_sublist.mpr (List.mem_cons_of_mem _ List.mem_cons_self)).trans
          hsuffix
      · split
        · exact ((List.sublist_cons_self _ _).trans (List.sublist_cons_self _ _)).trans hsuffix
        · exact List.Sublist.refl _
    · exact List.Sublist.refl _
  · exact List.Sublist.refl _

theorem Text.dropMargin_sublist (margin : Option Text) (line : Text) :
    dropMargin margin line <+ line := by
  cases margin with
  | none => exact List.Sublist.refl _
  | some marks => exact dropMark_sublist marks line

theorem flatten_map_sublist {f : Text → Text} (h : ∀ line, f line <+ line) (lines : List Text) :
    (lines.map f).flatten <+ lines.flatten := by
  have hlines : lines.flatMap f <+ lines.flatMap id :=
    List.Sublist.flatMap_right lines fun line _ ↦ h line
  rwa [List.flatMap_id] at hlines

/-! ## Lines of a block -/

theorem lines_fenceEnding? {mark text : Text} {ending : Ending}
    (h : fenceEnding? mark text = some ending) : ending.lines = [] := by
  induction text generalizing ending with
  | nil => simp [fenceEnding?] at h
  | cons c text ih =>
    rcases fenceEnding?_cons_eq_some h with ⟨after, -, -, rfl⟩ | ⟨-, later, hlater, rfl⟩
    · rfl
    · have hlines : later.lines = [] := ih hlater
      exact hlines

theorem flatten_lines_chainEnding (opener text : Text) :
    (chainEnding opener text).lines.flatten <+ (chainEnding opener text).read := by
  fun_induction chainEnding opener text with
  | case1 text line next => simp [Ending.read]
  | case2 text line next => simp [Ending.read]
  | case3 text line next _ more _ _ others ih =>
    -- indentation and opener stand between the line and those that follow
    have hothers : others.lines.flatten <+ others.read := ih
    rw [List.flatten_cons, Ending.read, List.append_assoc]
    refine (List.Sublist.refl line).append ?_
    rw [List.append_assoc, List.append_assoc]
    exact hothers.trans ((List.sublist_append_right _ _).trans (List.sublist_append_right _ _))

theorem flatten_lines_commentEnding? {inner closer text : Text} {margin : Option Text}
    {ending : Ending} (h : commentEnding? inner closer margin text = some ending) :
    ending.lines.flatten <+ ending.read := by
  obtain ⟨pieces, -, rfl⟩ := Option.map_eq_some_iff.mp h
  refine (flatten_map_sublist (Text.dropMargin_sublist margin) _).trans ?_
  have hlines : (if pieces.getLast? = some [] then pieces.dropLast else pieces).flatten
      <+ pieces.flatten := by
    split
    · exact pieces.dropLast_sublist.flatten
    · exact List.Sublist.refl _
  exact hlines.trans (List.sublist_append_left _ _)

theorem flatten_lines_linesEnding? {close? : Text → Option (Text × Text)} {text : Text}
    {ending : Ending} (h : linesEnding? close? text = some ending) :
    ending.lines.flatten <+ ending.read := by
  fun_induction linesEnding? close? text generalizing ending with
  | case1 => simp at h
  | case2 c rest body last =>
    rw [Option.some.injEq] at h
    rw [← h]
    exact List.nil_sublist _
  | case3 c rest _ _ line =>
    rename_i ih
    obtain ⟨later, hlater, rfl⟩ := Option.map_eq_some_iff.mp h
    rw [List.flatten_cons, Ending.read, List.append_assoc]
    exact (List.Sublist.refl line).append (ih hlater)

/-- **The lines of a block are a subsequence of the text it reads.** -/
theorem OpenBlock.flatten_lines_sublist_read {block : OpenBlock} {text : Text} {ending : Ending}
    (h : block.ending? text = some ending) : ending.lines.flatten <+ ending.read := by
  cases block with
  | heredoc label => exact flatten_lines_linesEnding? h
  | delimited form =>
    cases form with
    | string opener closer escape =>
      obtain ⟨body, -, rfl⟩ := Option.map_eq_some_iff.mp h
      exact List.nil_sublist _
    | line opener =>
      rw [OpenBlock.ending?, Delimited.ending?, Option.some.injEq] at h
      rw [← h]
      exact (flatten_map_sublist (Text.dropMark_sublist opener) _).trans
        (flatten_lines_chainEnding opener text)
    | comment opener closer margin => exact flatten_lines_commentEnding? h
    | doubled quote | raw openers quote =>
      obtain ⟨body, -, rfl⟩ := Option.map_eq_some_iff.mp h
      exact List.nil_sublist _
    | anchored opener closer => exact flatten_lines_linesEnding? h
    | nested opener closer margin => exact flatten_lines_commentEnding? h
    | fence mark =>
      rw [lines_fenceEnding? h]
      exact List.nil_sublist _

/-! ## Layout -/

theorem Text.dropIndent_sublist (width : Nat) (line : Text) : dropIndent width line <+ line := by
  fun_induction dropIndent width line with
  | case1 => exact List.Sublist.refl _
  | case2 width c rest _ ih => exact ih.trans (List.sublist_cons_self _ _)
  | case3 => exact List.Sublist.refl _

theorem outdent_sublist (indent : Nat) (line : Text) : outdent indent line <+ line := by
  unfold outdent
  split
  · exact List.Sublist.refl _
  · exact Text.dropIndent_sublist indent line

theorem trimBlankLines_sublist (lines : List Text) : trimBlankLines lines <+ lines := by
  have hends : (lines.dropWhile Text.isBlank).reverse.dropWhile Text.isBlank
      <+ (lines.dropWhile Text.isBlank).reverse := List.dropWhile_sublist _
  have hfront := hends.reverse
  rw [List.reverse_reverse] at hfront
  exact hfront.trans (List.dropWhile_sublist _)

theorem isBlank_of_trimBlankLines {lines others : List Text} {first : Text}
    (h : trimBlankLines lines = first :: others) : first.isBlank = false := by
  -- lines are taken from the end of what the first trimming leaves, so the first line stays first
  have hbegin : trimBlankLines lines <+: lines.dropWhile Text.isBlank := by
    rw [trimBlankLines, ← List.reverse_suffix, List.reverse_reverse]
    exact List.dropWhile_suffix _
  rw [h] at hbegin
  obtain ⟨more, hmore⟩ := hbegin
  have hhead := List.head?_dropWhile_not Text.isBlank lines
  rw [← hmore] at hhead
  exact hhead

theorem layout?_eq_some_iff {lines : List Text} {content : Text} :
    layout? lines = some content ↔ ∃ first others, trimBlankLines lines = first :: others
      ∧ content
        = Text.trimStart first ++ (others.map (outdent (commonIndent others))).flatten := by
  unfold layout?
  split
  · next hnil => simp [hnil]
  · next first others hcons =>
    rw [Option.some.injEq]
    constructor
    · rintro rfl
      exact ⟨first, others, hcons, rfl⟩
    · rintro ⟨other, more, hother, rfl⟩
      rw [hcons, List.cons.injEq] at hother
      rw [hother.1, hother.2]

/-- **A layout is a subsequence of the lines laid out.** -/
theorem sublist_of_layout? {lines : List Text} {content : Text}
    (h : layout? lines = some content) : content <+ lines.flatten := by
  obtain ⟨first, others, htrim, rfl⟩ := layout?_eq_some_iff.mp h
  have hlines : first ++ others.flatten <+ lines.flatten := by
    rw [← List.flatten_cons, ← htrim]
    exact (trimBlankLines_sublist lines).flatten
  refine List.Sublist.trans ?_ hlines
  exact (List.dropWhile_sublist _).append (flatten_map_sublist (outdent_sublist _) others)

theorem Text.exists_trimStart_eq_cons {line : Text} (h : line.isBlank = false) :
    ∃ indent c rest, isBlank indent = true ∧ isWhiteSpace c = false
      ∧ line = indent ++ c :: rest ∧ line.trimStart = c :: rest := by
  have hsplit : line.takeWhile isWhiteSpace ++ line.trimStart = line :=
    List.takeWhile_append_dropWhile
  cases htrim : line.trimStart with
  | nil =>
    -- a line that trimming empties is blank
    rw [trimStart, List.dropWhile_eq_nil_iff] at htrim
    rw [isBlank, List.all_eq_true.mpr htrim] at h
    exact absurd h Bool.noConfusion
  | cons c rest =>
    have hhead := List.head?_dropWhile_not isWhiteSpace line
    rw [trimStart] at htrim
    rw [htrim] at hhead
    rw [trimStart, htrim] at hsplit
    exact ⟨_, c, rest, List.all_takeWhile, hhead, hsplit.symm, rfl⟩

theorem exists_cons_of_layout? {lines : List Text} {content : Text}
    (h : layout? lines = some content) :
    ∃ c rest, content = c :: rest ∧ isWhiteSpace c = false := by
  obtain ⟨first, others, htrim, rfl⟩ := layout?_eq_some_iff.mp h
  obtain ⟨-, c, rest, -, hc, -, hfirst⟩ :=
    Text.exists_trimStart_eq_cons (isBlank_of_trimBlankLines htrim)
  rw [hfirst]
  exact ⟨c, _, rfl, hc⟩

end CommentBlocks
