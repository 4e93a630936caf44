import CommentBlocks.Proofs.ContentText
import CommentBlocks.Proofs.LineBreakText
import Mathlib.Order.Bounds.Basic

/-!
# What a layout takes away

A layout is found by trimming lines at both ends, by taking a least width over the lines that are
not blank, and by cutting that many bytes off each of them where no character stands in the way.
This file says what comes of it, for lines of any kind.

The lines that remain are told by `ContentSpan`: all from the first to the last with content. What
a later line loses is told by `Outdents`: the longest front of the line that fits into the common
width. That this front is white space is no separate rule. It follows from the width being least,
as no line has less white space to lose; and so does the fact that one line is left with none.
-/

namespace CommentBlocks

/-! ## The front of a line -/

namespace Text

variable {width : Nat} {line indent rest : Text}

theorem eq_nil_of_byteLength_eq_zero {text : Text} (h : text.byteLength = 0) : text = [] := by
  rcases List.eq_nil_or_concat' text with rfl | ⟨front, c, rfl⟩
  · rfl
  · have hpos := c.utf8Size_pos
    rw [byteLength_append, byteLength_cons] at h
    omega

theorem indentWidth_append_of_isBlank (h : indent.isBlank = true) (rest : Text) :
    indentWidth (indent ++ rest) = indent.byteLength + indentWidth rest := by
  rw [indentWidth, List.takeWhile_append_of_pos (List.all_eq_true.mp h), byteLength_append]
  rfl

theorem indentWidth_cons_of_white {c : Char} (h : isWhiteSpace c = true) (rest : Text) :
    indentWidth (c :: rest) = c.utf8Size + indentWidth rest := by
  rw [indentWidth, List.takeWhile_cons_of_pos h, byteLength_cons]
  rfl

theorem indentWidth_cons_of_not_white {c : Char} (h : ¬isWhiteSpace c = true) (rest : Text) :
    indentWidth (c :: rest) = 0 := by
  rw [indentWidth, List.takeWhile_cons_of_neg h, byteLength_nil]

/-- When `width` bytes of white space are to go from the front of `line`, `indent` goes and `rest`
remains: as much as fits, in whole characters. -/
structure Outdents (width : Nat) (line indent rest : Text) : Prop where
  /-- The line is cut in two. -/
  append_eq : indent ++ rest = line
  /-- What goes is white space. -/
  isBlank : indent.isBlank = true
  /-- What goes fits into the width. -/
  fits : indent.byteLength ≤ width
  /-- Nothing longer fits. -/
  longest : ∀ {front : Text}, front <+: line → front.byteLength ≤ width → front <+: indent

/-- **A line loses the longest front that fits**, if it has that much white space to lose. -/
theorem exists_outdents (h : width ≤ line.indentWidth) :
    ∃ indent, Outdents width line indent (line.dropIndent width) := by
  fun_induction dropIndent width line with
  | case1 width =>
    refine ⟨[], rfl, rfl, Nat.zero_le _, ?_⟩
    intro front hfront _
    exact hfront
  | case2 width c rest hspace ih =>
    rw [Bool.and_eq_true, decide_eq_true_iff] at hspace
    obtain ⟨hwhite, hsize⟩ := hspace
    rw [indentWidth_cons_of_white hwhite] at h
    obtain ⟨indent, hindent⟩ := ih (by omega)
    have hfits := hindent.fits
    refine ⟨c :: indent, congrArg (c :: ·) hindent.append_eq, ?_, ?_, ?_⟩
    · rw [Text.isBlank, List.all_cons, hwhite, Bool.true_and]
      exact hindent.isBlank
    · rw [byteLength_cons]
      omega
    · intro front hfront hlength
      rcases front with - | ⟨d, front⟩
      · exact List.nil_prefix
      · obtain ⟨rfl, hmore⟩ := List.cons_prefix_cons.mp hfront
        rw [byteLength_cons] at hlength
        exact List.cons_prefix_cons.mpr ⟨rfl, hindent.longest hmore (by omega)⟩
  | case3 width c rest hspace =>
    refine ⟨[], rfl, rfl, Nat.zero_le _, ?_⟩
    intro front hfront hlength
    rcases front with - | ⟨d, front⟩
    · exact List.nil_prefix
    · -- the first character would fit, so it is not white space, and the width is zero
      obtain ⟨rfl, -⟩ := List.cons_prefix_cons.mp hfront
      have hpos := d.utf8Size_pos
      rw [byteLength_cons] at hlength
      have hsize : d.utf8Size ≤ width := by omega
      have hwhite : ¬isWhiteSpace d = true := by
        intro hwhite
        rw [hwhite, Bool.true_and, decide_eq_true_iff] at hspace
        exact hspace hsize
      rw [indentWidth_cons_of_not_white hwhite] at h
      omega

namespace Outdents

variable (h : Outdents width line indent rest)
include h

/-- Where the width is a character boundary of the line, the line is cut there. -/
theorem eq_of_byteLength_eq {front : Text} (hfront : front <+: line)
    (hlength : front.byteLength = width) : front = indent := by
  obtain ⟨more, hmore⟩ := h.longest hfront (Nat.le_of_eq hlength)
  have hfits := h.fits
  rw [← hmore, byteLength_append] at hfits
  have hnil : more = [] := eq_nil_of_byteLength_eq_zero (by omega)
  rw [← hmore, hnil, List.append_nil]

theorem indentWidth_eq : line.indentWidth = indent.byteLength + rest.indentWidth := by
  rw [← h.append_eq, indentWidth_append_of_isBlank h.isBlank]

theorem indentWidth_add {front : Text} (hfront : front <+: line)
    (hlength : front.byteLength = width) : rest.indentWidth + width = line.indentWidth := by
  rw [h.indentWidth_eq, ← h.eq_of_byteLength_eq hfront hlength, hlength, Nat.add_comm]

end Outdents

/-- The white space at the front of the line takes one byte for each character. -/
def IsNarrowlyIndented (line : Text) : Prop := ∀ c ∈ line.takeWhile isWhiteSpace, c.utf8Size = 1

theorem byteLength_eq_length {text : Text} (h : ∀ c ∈ text, c.utf8Size = 1) :
    text.byteLength = text.length := by
  induction text with
  | nil => rfl
  | cons c text ih =>
    obtain ⟨hc, htext⟩ := List.forall_mem_cons.mp h
    rw [byteLength_cons, hc, ih htext, List.length_cons, Nat.add_comm]

/-- In narrow white space every width is a character boundary. -/
theorem IsNarrowlyIndented.exists_front (h : line.IsNarrowlyIndented)
    (hwidth : width ≤ line.indentWidth) :
    ∃ front : Text, front <+: line ∧ front.byteLength = width := by
  refine ⟨(line.takeWhile isWhiteSpace).take width,
    (List.take_prefix _ _).trans (List.takeWhile_prefix _), ?_⟩
  rw [byteLength_eq_length fun c hc ↦ h c (List.mem_of_mem_take hc), List.length_take]
  rw [indentWidth, byteLength_eq_length h] at hwidth
  exact Nat.min_eq_left hwidth

end Text

/-! ## The lines that remain -/

/-- The lines from the first to the last with content, which are `first` and the `others`, and the
blank lines around them. -/
structure ContentSpan (lines before : List Text) (first : Text) (others after : List Text) :
    Prop where
  lines_eq : lines = before ++ (first :: others ++ after)
  before_blank : ∀ line ∈ before, line.isBlank = true
  after_blank : ∀ line ∈ after, line.isBlank = true
  first_content : first.isBlank = false
  last_content : ∀ last ∈ (first :: others).getLast?, last.isBlank = false

section Span

variable {lines before others after : List Text} {first : Text}

theorem ContentSpan.trimBlankLines_eq (h : ContentSpan lines before first others after) :
    trimBlankLines lines = first :: others := by
  have hfirst : ¬first.isBlank = true := Bool.eq_false_iff.mp h.first_content
  have hfront : lines.dropWhile Text.isBlank = first :: others ++ after := by
    rw [h.lines_eq, List.dropWhile_append_of_pos h.before_blank, List.cons_append,
      List.dropWhile_cons_of_neg hfirst]
  have hafter : ∀ line ∈ after.reverse, line.isBlank = true := by
    intro line hline
    exact h.after_blank line (List.mem_reverse.mp hline)
  obtain ⟨front, last, hlast⟩ : ∃ front last, first :: others = front ++ [last] :=
    ⟨_, _, (List.dropLast_append_getLast (List.cons_ne_nil first others)).symm⟩
  have hcontent : ¬last.isBlank = true := by
    refine Bool.eq_false_iff.mp (h.last_content last ?_)
    rw [hlast, List.getLast?_concat, Option.mem_some_iff]
  rw [trimBlankLines, hfront, List.reverse_append, List.dropWhile_append_of_pos hafter, hlast,
    List.reverse_concat, List.dropWhile_cons_of_neg hcontent, ← List.reverse_concat,
    List.reverse_reverse]

theorem exists_contentSpan (h : trimBlankLines lines = first :: others) :
    ∃ before after, ContentSpan lines before first others after := by
  let kept := lines.dropWhile Text.isBlank
  have hblank : ∀ (list : List Text), ∀ line ∈ list.takeWhile Text.isBlank, line.isBlank = true :=
    fun _ ↦ List.all_eq_true.mp List.all_takeWhile
  have hkept : kept = first :: others ++ (kept.reverse.takeWhile Text.isBlank).reverse := by
    rw [← h, trimBlankLines, ← List.reverse_append, List.takeWhile_append_dropWhile,
      List.reverse_reverse]
  refine ⟨lines.takeWhile Text.isBlank, (kept.reverse.takeWhile Text.isBlank).reverse, ?_⟩
  refine ⟨?_, hblank lines, ?_, isBlank_of_trimBlankLines h, ?_⟩
  · rw [← hkept, List.takeWhile_append_dropWhile]
  · intro line hline
    exact hblank _ line (List.mem_reverse.mp hline)
  · -- the last line is where trimming from the end came to a stop
    intro last hlast
    have hstop := List.head?_dropWhile_not Text.isBlank kept.reverse
    rw [← h, trimBlankLines, List.getLast?_reverse, Option.mem_def] at hlast
    rw [hlast] at hstop
    exact hstop

theorem trimBlankLines_eq_nil_iff :
    trimBlankLines lines = [] ↔ ∀ line ∈ lines, line.isBlank = true := by
  constructor
  · intro h line hline
    rw [trimBlankLines, List.reverse_eq_nil_iff, List.dropWhile_eq_nil_iff] at h
    have hkept : lines.dropWhile Text.isBlank = [] := by
      rcases hdrop : lines.dropWhile Text.isBlank with - | ⟨first, others⟩
      · rfl
      · have hstop := List.head?_dropWhile_not Text.isBlank lines
        rw [hdrop] at hstop h
        have hfirst := h first (List.mem_reverse.mpr List.mem_cons_self)
        rw [hstop] at hfirst
        exact absurd hfirst Bool.false_ne_true
    exact List.dropWhile_eq_nil_iff.mp hkept line hline
  · intro h
    rw [trimBlankLines, List.dropWhile_eq_nil_iff.mpr h]
    rfl

theorem layout?_eq_none_iff : layout? lines = none ↔ ∀ line ∈ lines, line.isBlank = true := by
  rw [← trimBlankLines_eq_nil_iff, layout?]
  rcases trimBlankLines lines with - | ⟨first, others⟩
  · exact iff_of_true rfl rfl
  · exact iff_of_false (Option.some_ne_none _) (List.cons_ne_nil _ _)

theorem ContentSpan.exists_content (h : ContentSpan lines before first others after)
    (hothers : others ≠ []) : ∃ line ∈ others, line.isBlank = false := by
  refine ⟨others.getLast hothers, List.getLast_mem hothers, h.last_content _ ?_⟩
  rw [List.getLast?_cons_of_ne_nil hothers, List.getLast?_eq_some_getLast hothers]
  exact rfl

end Span

/-! ## The common indentation -/

/-- The indentations of the lines with content. -/
def indentWidths (lines : List Text) : Set Nat :=
  {width | ∃ line ∈ lines, line.isBlank = false ∧ line.indentWidth = width}

section Common

variable {lines : List Text} {width : Nat}

theorem isLeast_commonIndent (h : ∃ line ∈ lines, line.isBlank = false) :
    IsLeast (indentWidths lines) (commonIndent lines) := by
  let widths := (lines.filter fun line ↦ !line.isBlank).map Text.indentWidth
  have hmem : ∀ {width}, width ∈ widths ↔ width ∈ indentWidths lines := by
    intro width
    simp only [widths, List.mem_map, List.mem_filter, Bool.not_eq_true', and_assoc]
    exact Iff.rfl
  obtain ⟨line, hline, hcontent⟩ := h
  obtain ⟨least, hleast⟩ : ∃ least, widths.min? = some least := by
    refine Option.isSome_iff_exists.mp (List.isSome_min?_of_mem (a := line.indentWidth) ?_)
    exact hmem.mpr ⟨line, hline, hcontent, rfl⟩
  have hcommon : commonIndent lines = least := by
    rw [commonIndent, hleast, Option.getD_some]
  obtain ⟨hin, hlow⟩ := List.min?_eq_some_iff.mp hleast
  rw [hcommon]
  exact ⟨hmem.mp hin, fun width hwidth ↦ hlow width (hmem.mpr hwidth)⟩

theorem outdent_of_isBlank {line : Text} (h : line.isBlank = true) : outdent width line = line :=
  if_pos h

theorem exists_outdents_of_isLeast (h : IsLeast (indentWidths lines) width) {line : Text}
    (hline : line ∈ lines) (hcontent : line.isBlank = false) :
    ∃ indent, Text.Outdents width line indent (outdent width line) := by
  rw [outdent, if_neg (Bool.eq_false_iff.mp hcontent)]
  exact Text.exists_outdents (h.2 ⟨line, hline, hcontent, rfl⟩)

/-- **A line with the least indentation loses all of it.** -/
theorem exists_flush_of_isLeast (h : IsLeast (indentWidths lines) width) :
    ∃ line ∈ lines, line.isBlank = false ∧ (outdent width line).indentWidth = 0 := by
  obtain ⟨line, hline, hcontent, hwidth⟩ := h.1
  obtain ⟨indent, hindent⟩ := exists_outdents_of_isLeast h hline hcontent
  have hadd := hindent.indentWidth_add (List.takeWhile_prefix isWhiteSpace) hwidth
  exact ⟨line, hline, hcontent, by omega⟩

/-- Lines with narrow indentation all lose the same of it. -/
theorem indentWidth_outdent_add (h : IsLeast (indentWidths lines) width) {line : Text}
    (hline : line ∈ lines) (hcontent : line.isBlank = false) (hnarrow : line.IsNarrowlyIndented) :
    (outdent width line).indentWidth + width = line.indentWidth := by
  obtain ⟨indent, hindent⟩ := exists_outdents_of_isLeast h hline hcontent
  obtain ⟨front, hfront, hlength⟩ := hnarrow.exists_front (h.2 ⟨line, hline, hcontent, rfl⟩)
  exact hindent.indentWidth_add hfront hlength

end Common

/-! ## What is not white space -/

/-- The characters of a text that are not white space. -/
def Text.ink (text : Text) : Text := text.filter fun c ↦ !isWhiteSpace c

namespace Text

@[simp] theorem ink_append (s t : Text) : ink (s ++ t) = ink s ++ ink t := List.filter_append _ _

theorem ink_of_isBlank {text : Text} (h : text.isBlank = true) : ink text = [] := by
  rw [ink, List.filter_eq_nil_iff]
  intro c hc
  rw [List.all_eq_true.mp h c hc]
  exact Bool.false_ne_true

theorem isBlank_eq_isEmpty_ink (text : Text) : text.isBlank = text.ink.isEmpty := by
  rw [Bool.eq_iff_iff, List.isEmpty_iff, ink, List.filter_eq_nil_iff, isBlank, List.all_eq_true]
  simp only [Bool.not_eq_true', Bool.not_eq_false]

theorem ink_flatten_of_isBlank {lines : List Text} (h : ∀ line ∈ lines, line.isBlank = true) :
    ink lines.flatten = [] := by
  rw [ink, List.filter_flatten, List.flatten_eq_nil_iff]
  intro piece hpiece
  obtain ⟨line, hline, rfl⟩ := List.mem_map.mp hpiece
  exact ink_of_isBlank (h line hline)

theorem ink_trimStart (text : Text) : ink (trimStart text) = ink text := by
  have hspace : Text.isBlank (text.takeWhile isWhiteSpace) = true := List.all_takeWhile
  nth_rewrite 2 [← List.takeWhile_append_dropWhile (p := isWhiteSpace) (l := text)]
  rw [ink_append, ink_of_isBlank hspace, List.nil_append]
  rfl

theorem ink_dropIndent (width : Nat) (line : Text) : ink (line.dropIndent width) = ink line := by
  fun_induction dropIndent width line with
  | case1 => rfl
  | case2 width c rest hspace ih =>
    rw [ih, ink, ink, List.filter_cons_of_neg]
    rw [(Bool.and_eq_true_iff.mp hspace).1]
    exact Bool.false_ne_true
  | case3 => rfl

end Text

theorem ink_outdent (width : Nat) (line : Text) : (outdent width line).ink = line.ink := by
  rw [outdent]
  split
  · rfl
  · exact Text.ink_dropIndent width line

/-- **A layout keeps all that is not white space**, in its order. -/
theorem ink_of_layout? {lines : List Text} {content : Text} (h : layout? lines = some content) :
    content.ink = Text.ink lines.flatten := by
  obtain ⟨first, others, htrim, rfl⟩ := layout?_eq_some_iff.mp h
  obtain ⟨before, after, hspan⟩ := exists_contentSpan htrim
  have hothers : Text.ink (others.map (outdent (commonIndent others))).flatten
      = Text.ink others.flatten := by
    rw [Text.ink, Text.ink, List.filter_flatten, List.filter_flatten, List.map_map]
    exact congrArg List.flatten (List.map_congr_left fun line _ ↦ ink_outdent _ line)
  rw [hspan.lines_eq, List.flatten_append, List.flatten_append, List.flatten_cons, Text.ink_append,
    Text.ink_append, Text.ink_append, Text.ink_append,
    Text.ink_flatten_of_isBlank hspan.before_blank, Text.ink_flatten_of_isBlank hspan.after_blank,
    hothers, Text.ink_trimStart, List.nil_append, List.append_nil]

/-! ## The layout of any lines -/

/-- **A layout takes away incidental indentation and nothing else.** There is one unless all lines
are blank. It joins the lines from the first to the last with content: the first without the white
space it begins with, the later ones that are blank as they are, and the other later ones without
the white space that fits into the least of their indentations. That much goes exactly where a
character ends there, so one of these lines is left without indentation, and lines indented by
single bytes stay as far apart as they were. All that is not white space is kept. -/
theorem layout_removes_common_indentation (lines : List Text) :
    (layout? lines = none ↔ ∀ line ∈ lines, line.isBlank = true)
      ∧ ∀ content, layout? lines = some content →
        ∃ before first others after width, ContentSpan lines before first others after
          ∧ (others ≠ [] → IsLeast (indentWidths others) width)
          ∧ content = first.trimStart ++ (others.map (outdent width)).flatten
          ∧ (∃ indent c rest, indent.isBlank = true ∧ isWhiteSpace c = false
            ∧ first = indent ++ c :: rest ∧ first.trimStart = c :: rest)
          ∧ (∀ line ∈ others, line.isBlank = true → outdent width line = line)
          ∧ (∀ line ∈ others, line.isBlank = false →
            ∃ indent, Text.Outdents width line indent (outdent width line)
              ∧ ∀ front : Text, front <+: line → front.byteLength = width → front = indent)
          ∧ (others ≠ [] →
            ∃ line ∈ others, line.isBlank = false ∧ (outdent width line).indentWidth = 0)
          ∧ (∀ line ∈ others, ∀ other ∈ others, line.isBlank = false → other.isBlank = false →
            line.IsNarrowlyIndented → other.IsNarrowlyIndented →
              (outdent width line).indentWidth + other.indentWidth
                = (outdent width other).indentWidth + line.indentWidth)
          ∧ content.ink = Text.ink lines.flatten := by
  refine ⟨layout?_eq_none_iff, ?_⟩
  intro content hlayout
  obtain ⟨first, others, htrim, hcontent⟩ := layout?_eq_some_iff.mp hlayout
  obtain ⟨before, after, hspan⟩ := exists_contentSpan htrim
  have hleast : others ≠ [] → IsLeast (indentWidths others) (commonIndent others) :=
    fun hothers ↦ isLeast_commonIndent (hspan.exists_content hothers)
  refine ⟨before, first, others, after, commonIndent others, hspan, hleast, hcontent,
    Text.exists_trimStart_eq_cons hspan.first_content, fun line _ ↦ outdent_of_isBlank, ?_,
    fun hothers ↦ exists_flush_of_isLeast (hleast hothers), ?_, ink_of_layout? hlayout⟩
  · intro line hline hline'
    obtain ⟨indent, hindent⟩ :=
      exists_outdents_of_isLeast (hleast (List.ne_nil_of_mem hline)) hline hline'
    exact ⟨indent, hindent, fun front ↦ hindent.eq_of_byteLength_eq⟩
  · intro line hline other hother hline' hother' hnarrow hnarrow'
    have hwidth := hleast (List.ne_nil_of_mem hline)
    have hadd := indentWidth_outdent_add hwidth hline hline' hnarrow
    have hadd' := indentWidth_outdent_add hwidth hother hother' hnarrow'
    omega

-- one byte is to go, and the second line has none that it could lose
example : layout? [" a\n".toList, "\u3000b\n".toList, " c\n".toList]
    = some "a\n\u3000b\nc\n".toList := by
  decide

end CommentBlocks
