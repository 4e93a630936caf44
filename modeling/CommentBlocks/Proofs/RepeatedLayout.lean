import CommentBlocks.Proofs.FirstPlaces
import CommentBlocks.Proofs.Indentation
import CommentBlocks.Proofs.LineBreakLines
import Mathlib.Data.List.DropRight

/-!
# Laying out once is enough

A layout is one text, and can be cut into lines and laid out again. Nothing changes then: a layout
is its own layout.

Two things have to be seen. The lines cut from a layout are those it was joined from, because
removing indentation leaves the end of a line alone and the line feed with it
(`Text.lines_flatten`). And no indentation is common to them any more, whatever kinds of white space
they are indented with, because the line that had least has none left (`commonIndent_map_outdent`).
-/

namespace CommentBlocks

/-! ## Cutting what was joined -/

/-- The lines are those of a document: a line feed stands nowhere but at the end of a line, and all
lines but the last end with one. -/
def ArePhysical (lines : List Text) : Prop :=
  (∀ line ∈ lines, line.IsLine) ∧ ∀ line ∈ lines.dropLast, line.getLast? = some '\n'

instance (line : Text) : Decidable line.IsLine := inferInstanceAs (Decidable (_ ∉ _))

instance (lines : List Text) : Decidable (ArePhysical lines) := inferInstanceAs (Decidable (_ ∧ _))

section Joining

variable {line rest : Text} {lines others : List Text}

theorem arePhysical_cons_iff :
    ArePhysical (line :: others) ↔
      line.IsLine ∧ (others ≠ [] → line.getLast? = some '\n') ∧ ArePhysical others := by
  unfold ArePhysical
  rw [List.forall_mem_cons]
  by_cases hothers : others = []
  · rw [hothers]
    simp
  · rw [List.dropLast_cons_of_ne_nil hothers, List.forall_mem_cons]
    constructor
    · rintro ⟨⟨hline, hlines⟩, hfeed, hends⟩
      exact ⟨hline, fun _ ↦ hfeed, hlines, hends⟩
    · rintro ⟨hline, hfeed, hlines, hends⟩
      exact ⟨⟨hline, hlines⟩, hfeed hothers, hends⟩

theorem ArePhysical.of_infix (h : ArePhysical lines) (hothers : others <:+: lines) :
    ArePhysical others := by
  refine ⟨fun line hline ↦ h.1 line (hothers.subset hline), ?_⟩
  intro line hline
  rcases List.eq_nil_or_concat' others with rfl | ⟨front, last, rfl⟩
  · exact absurd hline List.not_mem_nil
  · -- a line that is not the last of a part is not the last of the whole
    obtain ⟨before, after, rfl⟩ := hothers
    rw [List.dropLast_concat] at hline
    apply h.2
    rw [List.append_assoc, List.append_assoc, ← List.append_assoc before,
      List.dropLast_append_of_ne_nil (List.append_ne_nil_of_left_ne_nil (List.cons_ne_nil _ _) _)]
    exact List.mem_append_left _ (List.mem_append_right _ hline)

theorem Text.IsLine.of_suffix (h : line.IsLine) (hrest : rest <:+ line) (hne : rest ≠ []) :
    rest.IsLine ∧ rest.getLast? = line.getLast? := by
  obtain ⟨front, rfl⟩ := hrest
  rw [IsLine, List.dropLast_append_of_ne_nil hne, List.mem_append, not_or] at h
  exact ⟨h.2, (List.getLast?_append_of_ne_nil front hne).symm⟩

/-- Lines may lose their fronts, if none loses everything. -/
theorem ArePhysical.of_forall₂ (h : ArePhysical lines)
    (hothers : List.Forall₂ (fun rest line : Text ↦ rest <:+ line ∧ rest ≠ []) others lines) :
    ArePhysical others := by
  induction hothers with
  | nil => exact h
  | @cons rest line others lines hrest hothers ih =>
    obtain ⟨hline, hfeed, hlines⟩ := arePhysical_cons_iff.mp h
    obtain ⟨hshort, hlast⟩ := hline.of_suffix hrest.1 hrest.2
    refine arePhysical_cons_iff.mpr ⟨hshort, ?_, ih hlines⟩
    intro hne
    rw [hlast]
    refine hfeed ?_
    rintro rfl
    exact hne (List.forall₂_nil_right_iff.mp hothers)

theorem Text.splitLine_of_isLine (h : line.IsLine) : splitLine line = (line, []) := by
  rcases List.eq_nil_or_concat' line with rfl | ⟨body, last, rfl⟩
  · rfl
  · rw [IsLine, List.dropLast_concat] at h
    rw [splitLine_append_of_not_mem h, splitLine]
    split <;> rfl

theorem Text.splitLine_append_of_feed (h : line.IsLine) (hfeed : line.getLast? = some '\n')
    (rest : Text) : splitLine (line ++ rest) = (line, rest) := by
  obtain ⟨body, rfl⟩ := List.getLast?_eq_some_iff.mp hfeed
  rw [IsLine, List.dropLast_concat] at h
  rw [List.append_assoc, splitLine_append_of_not_mem h]
  rfl

/-- **Lines that are joined can be cut again**, if none of them is empty. -/
theorem Text.lines_flatten (h : ArePhysical lines) (hne : ∀ line ∈ lines, line ≠ []) :
    Text.lines lines.flatten = lines := by
  induction lines with
  | nil => rfl
  | cons line others ih =>
    obtain ⟨hline, hfeed, hothers⟩ := arePhysical_cons_iff.mp h
    obtain ⟨hne, hneOthers⟩ := List.forall_mem_cons.mp hne
    rw [List.flatten_cons, lines_of_ne_nil (List.append_ne_nil_of_left_ne_nil hne _)]
    by_cases hlast : others = []
    · rw [hlast, List.flatten_nil, List.append_nil, splitLine_of_isLine hline]
      rfl
    · rw [splitLine_append_of_feed hline (hfeed hlast), ih hothers hneOthers]

end Joining

/-! ## Lines that lost their indentation -/

section Outdented

variable {line : Text} {lines : List Text}

theorem outdent_suffix (width : Nat) (line : Text) : outdent width line <:+ line := by
  rw [outdent]
  split
  · exact List.suffix_refl _
  · exact Text.dropIndent_suffix width line

theorem isBlank_outdent (width : Nat) (line : Text) :
    (outdent width line).isBlank = line.isBlank := by
  rw [Text.isBlank_eq_isEmpty_ink, ink_outdent, Text.isBlank_eq_isEmpty_ink]

theorem isBlank_trimStart (line : Text) : line.trimStart.isBlank = line.isBlank := by
  rw [Text.isBlank_eq_isEmpty_ink, Text.ink_trimStart, Text.isBlank_eq_isEmpty_ink]

theorem outdent_zero (line : Text) : outdent 0 line = line := by
  rw [outdent]
  split
  · rfl
  · rcases line with - | ⟨c, rest⟩
    · rfl
    · have hpos := c.utf8Size_pos
      rw [Text.dropIndent, if_neg]
      rw [Bool.and_eq_true, decide_eq_true_iff]
      omega

/-- **No indentation is common to lines that have lost theirs.** -/
theorem commonIndent_map_outdent (lines : List Text) :
    commonIndent (lines.map (outdent (commonIndent lines))) = 0 := by
  by_cases hcontent : ∃ line ∈ lines, line.isBlank = false
  · obtain ⟨line, hline, hblank, hflush⟩ := exists_flush_of_isLeast (isLeast_commonIndent hcontent)
    have hmem := List.mem_map_of_mem (f := outdent (commonIndent lines)) hline
    have hblank' := (isBlank_outdent (commonIndent lines) line).trans hblank
    have hleast := isLeast_commonIndent ⟨_, hmem, hblank'⟩
    exact Nat.le_zero.mp (hleast.2 ⟨_, hmem, hblank', hflush⟩)
  · have hnone : (lines.map (outdent (commonIndent lines))).filter (fun line ↦ !line.isBlank)
        = [] := by
      rw [List.filter_eq_nil_iff]
      intro shorter hshorter hkept
      obtain ⟨line, hline, rfl⟩ := List.mem_map.mp hshorter
      rw [isBlank_outdent, Bool.not_eq_true'] at hkept
      exact hcontent ⟨line, hline, hkept⟩
    rw [commonIndent, hnone]
    rfl

end Outdented

/-! ## The layout of a layout -/

section Again

variable {lines before others after : List Text} {first : Text}

theorem ne_nil_of_isBlank_eq_false {line : Text} (h : line.isBlank = false) : line ≠ [] := by
  rintro rfl
  exact absurd h (by decide)

/-- The lines that remain are not empty: all but the last have a line feed, and the last has
content. -/
theorem ContentSpan.ne_nil_of_mem (h : ContentSpan lines before first others after)
    (hspan : ArePhysical (first :: others)) {line : Text} (hline : line ∈ first :: others) :
    line ≠ [] := by
  obtain ⟨front, last, hlast⟩ : ∃ front last, first :: others = front ++ [last] :=
    ⟨_, _, (List.dropLast_append_getLast (List.cons_ne_nil first others)).symm⟩
  have hends := hspan.2
  have hcontent := h.last_content
  rw [hlast, List.getLast?_concat] at hcontent
  rw [hlast, List.dropLast_concat] at hends
  rw [hlast, List.mem_append, List.mem_singleton] at hline
  rcases hline with hline | rfl
  · rintro rfl
    exact absurd (hends [] hline) (Option.some_ne_none _).symm
  · exact ne_nil_of_isBlank_eq_false (hcontent line rfl)

theorem outdent_ne_nil {line : Text} (width : Nat) (hne : line ≠ []) : outdent width line ≠ [] := by
  by_cases hblank : line.isBlank = true
  · rwa [outdent_of_isBlank hblank]
  · apply ne_nil_of_isBlank_eq_false
    rw [isBlank_outdent, Bool.eq_false_iff]
    exact hblank

theorem ContentSpan.lines_layout (h : ContentSpan lines before first others after)
    (hlines : ArePhysical lines) (width : Nat) :
    Text.lines (first.trimStart ++ (others.map (outdent width)).flatten)
      = first.trimStart :: others.map (outdent width) := by
  have hspan : ArePhysical (first :: others) := by
    refine hlines.of_infix ⟨before, after, ?_⟩
    rw [h.lines_eq, List.append_assoc]
  have hfirst : first.trimStart ≠ [] := by
    apply ne_nil_of_isBlank_eq_false
    rw [isBlank_trimStart, h.first_content]
  have hothers : ∀ line ∈ others, outdent width line ≠ [] :=
    fun line hline ↦ outdent_ne_nil width (h.ne_nil_of_mem hspan (List.mem_cons_of_mem _ hline))
  have hshort : List.Forall₂ (fun rest line : Text ↦ rest <:+ line ∧ rest ≠ [])
      (first.trimStart :: others.map (outdent width)) (first :: others) := by
    refine .cons ⟨List.dropWhile_suffix _, hfirst⟩ ?_
    rw [List.forall₂_map_left_iff, List.forall₂_same]
    exact fun line hline ↦ ⟨outdent_suffix width line, hothers line hline⟩
  rw [← List.flatten_cons, Text.lines_flatten (hspan.of_forall₂ hshort)]
  rw [List.forall_mem_cons, List.forall_mem_map]
  exact ⟨hfirst, hothers⟩

theorem ContentSpan.outdented (h : ContentSpan lines before first others after) (width : Nat) :
    ContentSpan (first.trimStart :: others.map (outdent width)) [] first.trimStart
      (others.map (outdent width)) [] := by
  refine ⟨(List.append_nil _).symm, fun _ ↦ (absurd · List.not_mem_nil),
    fun _ ↦ (absurd · List.not_mem_nil), ?_, ?_⟩
  · rw [isBlank_trimStart, h.first_content]
  · intro last hlast
    rcases List.eq_nil_or_concat' others with rfl | ⟨front, line, rfl⟩
    · rw [List.map_nil, List.getLast?_singleton] at hlast
      obtain rfl := Option.some_inj.mp hlast
      rw [isBlank_trimStart, h.first_content]
    · rw [List.map_append, ← List.cons_append, List.map_singleton, List.getLast?_concat] at hlast
      obtain rfl := Option.some_inj.mp hlast
      rw [isBlank_outdent]
      refine h.last_content line ?_
      rw [← List.cons_append, List.getLast?_concat]
      rfl

/-- **A layout is its own layout.** The lines of a document are laid out to a text; cut behind its
line feeds and laid out again, it stays as it is. -/
theorem layout_of_layout {content : Text} (hlines : ArePhysical lines)
    (hlayout : layout? lines = some content) : layout? content.lines = some content := by
  obtain ⟨first, others, htrim, rfl⟩ := layout?_eq_some_iff.mp hlayout
  obtain ⟨before, after, hspan⟩ := exists_contentSpan htrim
  rw [hspan.lines_layout hlines, layout?_eq_some_iff]
  refine ⟨_, _, (hspan.outdented _).trimBlankLines_eq, ?_⟩
  have hsame : outdent 0 = id := funext outdent_zero
  rw [commonIndent_map_outdent, hsame, List.map_id, Text.trimStart, Text.trimStart,
    List.dropWhile_idempotent]

/-- White space of one, two and three bytes. What fits into the common four bytes is cut from the
lines; the no-break space of the second line does not, and stays. -/
theorem layout_of_layout_wide_spaces :
    let lines := [" \n", "  @api\n", "\u3000\u00A0GET\n", "\n", "\t\u2003/users\n", ""].map
      String.toList
    let content : Text := "@api\n\u00A0GET\n\n/users\n".toList
    ArePhysical lines ∧ layout? lines = some content ∧ layout? content.lines = some content := by
  intro lines content
  have hlines : ArePhysical lines := by decide
  have hlayout : layout? lines = some content := by decide
  exact ⟨hlines, hlayout, layout_of_layout hlines hlayout⟩

end Again

end CommentBlocks
