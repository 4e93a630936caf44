import CommentBlocks.Text.WhiteSpace
import Mathlib.Data.List.Infix

/-!
# Tokens and lines in a text that is cut short

When a text is cut off, what does not match in it does not match in what remains, and what matches
and lies within what remains still matches. Lines are more delicate, since the end of the text ends
a line: a first line is kept if it lies within what remains, and a line feed within what remains
ends it for good.

Throughout, `kept` is the front of `text` that remains.
-/

namespace CommentBlocks

namespace Text

/-! ## Tokens -/

variable {token text kept rest : Text}

theorem afterToken?_eq_none_of_isPrefix (hkept : kept <+: text)
    (h : afterToken? token text = none) : afterToken? token kept = none := by
  apply Option.eq_none_iff_forall_ne_some.mpr
  intro rest hrest
  obtain ⟨hne, rfl⟩ := afterToken?_eq_some_iff.mp hrest
  obtain ⟨cut, rfl⟩ := hkept
  rw [List.append_assoc, afterToken?_eq_some_iff.mpr ⟨hne, rfl⟩] at h
  simp at h

theorem afterToken?_append (hne : token ≠ []) (rest : Text) :
    afterToken? token (token ++ rest) = some rest :=
  afterToken?_eq_some_iff.mpr ⟨hne, rfl⟩

theorem startsWith_eq_false_of_isPrefix (hkept : kept <+: text)
    (h : ¬startsWith token text = true) : ¬startsWith token kept = true := by
  rw [startsWith, Option.not_isSome_iff_eq_none] at h ⊢
  exact afterToken?_eq_none_of_isPrefix hkept h

theorem startsWith_of_isPrefix (h : startsWith token text = true) (hkept : token <+: kept) :
    startsWith token kept = true := by
  obtain ⟨rest, rfl⟩ := hkept
  exact startsWith_iff.mpr ⟨(startsWith_iff.mp h).1, rest, rfl⟩

theorem lineBreak?_eq_none_of_isPrefix (hkept : kept <+: text) (h : lineBreak? text = none) :
    lineBreak? kept = none := by
  unfold lineBreak? at h ⊢
  split at h
  · simp at h
  · next hn =>
    split at h
    · simp at h
    · next hrn =>
      rw [if_neg (startsWith_eq_false_of_isPrefix hkept hn),
        if_neg (startsWith_eq_false_of_isPrefix hkept hrn)]

theorem lineBreak?_of_isPrefix {lineBreak : Text} (hkept : kept <+: text)
    (h : lineBreak? text = some lineBreak) (hbreak : lineBreak <+: kept) :
    lineBreak? kept = some lineBreak := by
  unfold lineBreak? at h ⊢
  split at h
  · next hn =>
    rw [Option.some.injEq] at h
    rw [if_pos (startsWith_of_isPrefix hn (h ▸ hbreak)), h]
  · next hn =>
    split at h
    · next hrn =>
      rw [Option.some.injEq] at h
      rw [if_neg (startsWith_eq_false_of_isPrefix hkept hn),
        if_pos (startsWith_of_isPrefix hrn (h ▸ hbreak)), h]
    · simp at h

/-! ## Lines -/

/-- A line feed decides where the first line ends, whatever follows. -/
theorem splitLine_append_of_mem (h : '\n' ∈ kept) (rest : Text) :
    splitLine (kept ++ rest) = ((splitLine kept).1, (splitLine kept).2 ++ rest) := by
  induction kept with
  | nil => exact absurd h List.not_mem_nil
  | cons c kept ih =>
    rw [List.cons_append, splitLine, splitLine]
    by_cases hc : c = '\n'
    · rw [if_pos hc, if_pos hc]
    · have hmem := (List.mem_cons.mp h).resolve_left (Ne.symm hc)
      rw [if_neg hc, if_neg hc, ih hmem]

theorem splitLine_of_not_mem (h : '\n' ∉ text) : splitLine text = (text, []) := by
  induction text with
  | nil => rfl
  | cons c text ih =>
    rw [List.mem_cons, not_or] at h
    rw [splitLine, if_neg (Ne.symm h.1), ih h.2]

theorem exists_splitLine_eq (h : '\n' ∈ text) : ∃ line, (splitLine text).1 = line ++ ['\n'] := by
  induction text with
  | nil => exact absurd h List.not_mem_nil
  | cons c text ih =>
    rw [splitLine]
    by_cases hc : c = '\n'
    · rw [if_pos hc, hc]
      exact ⟨[], rfl⟩
    · rw [if_neg hc]
      obtain ⟨line, hline⟩ := ih ((List.mem_cons.mp h).resolve_left (Ne.symm hc))
      exact ⟨c :: line, congrArg (c :: ·) hline⟩

theorem splitLine_of_isPrefix (hkept : kept <+: text) (hline : (splitLine text).1 <+: kept) :
    (splitLine kept).1 = (splitLine text).1 ∧ (splitLine kept).2 <+: (splitLine text).2 := by
  obtain ⟨rest, rfl⟩ := hkept
  by_cases hfeed : '\n' ∈ kept
  · rw [splitLine_append_of_mem hfeed]
    exact ⟨rfl, List.prefix_append _ _⟩
  · -- the first line has no line feed, so it is the whole text, and nothing was cut
    have hwhole : '\n' ∉ kept ++ rest := by
      intro hmem
      obtain ⟨line, hfirst⟩ := exists_splitLine_eq hmem
      refine hfeed (hline.subset ?_)
      rw [hfirst]
      exact List.mem_append_right _ (List.mem_singleton_self _)
    rw [splitLine_of_not_mem hwhole] at hline ⊢
    have hrest : rest = [] := by
      have hlength := hline.length_le
      rw [List.length_append] at hlength
      exact List.eq_nil_of_length_eq_zero (by omega)
    rw [hrest, List.append_nil, splitLine_of_not_mem hfeed]
    exact ⟨rfl, List.prefix_refl _⟩

/-! ## Leading characters -/

theorem dropWhile_of_isPrefix (p : Char → Bool) (hkept : kept <+: text) :
    kept.dropWhile p <+: text.dropWhile p := by
  induction text generalizing kept with
  | nil =>
    obtain rfl := List.prefix_nil.mp hkept
    exact List.prefix_refl _
  | cons c text ih =>
    cases kept with
    | nil => exact List.nil_prefix
    | cons d kept =>
      obtain ⟨rfl, hrest⟩ := List.cons_prefix_cons.mp hkept
      by_cases hd : p d = true
      · rw [List.dropWhile_cons_of_pos hd, List.dropWhile_cons_of_pos hd]
        exact ih hrest
      · rw [List.dropWhile_cons_of_neg hd, List.dropWhile_cons_of_neg hd]
        exact hkept

/-- The token that follows the leading characters ends them, whatever follows it. -/
theorem takeWhile_append_of_dropWhile {p : Char → Bool} (h : text.dropWhile p = token ++ rest)
    (hne : token ≠ []) (left : Text) :
    (text.takeWhile p ++ (token ++ left)).takeWhile p = text.takeWhile p
      ∧ (text.takeWhile p ++ (token ++ left)).dropWhile p = token ++ left := by
  obtain ⟨c, others, rfl⟩ := List.exists_cons_of_ne_nil hne
  have hc : ¬p c = true := by
    have hhead := List.head?_dropWhile_not p text
    rw [h] at hhead
    exact Bool.eq_false_iff.mp hhead
  have hall : ∀ d ∈ text.takeWhile p, p d = true := by
    intro d hd
    exact List.all_eq_true.mp List.all_takeWhile d hd
  rw [List.takeWhile_append_of_pos hall, List.dropWhile_append_of_pos hall, List.cons_append,
    List.takeWhile_cons_of_neg hc, List.dropWhile_cons_of_neg hc, List.append_nil]
  exact ⟨rfl, rfl⟩

/-! ## Reading on -/

/-- When a front of the text is read and what remains reaches further, that front is cut from
both. -/
theorem exists_append_of_isPrefix (front : Text) {back : Text} (hkept : kept <+: front ++ text)
    (hread : front ++ back <+: kept) :
    ∃ more, kept = front ++ more ∧ more <+: text ∧ back <+: more := by
  obtain ⟨rest, rfl⟩ := hread
  rw [List.append_assoc] at hkept ⊢
  exact ⟨back ++ rest, rfl, (List.prefix_append_right_inj front).mp hkept, List.prefix_append _ _⟩

theorem exists_splitLine_of_isPrefix {back : Text} (hkept : kept <+: text)
    (hread : (splitLine text).1 ++ back <+: kept) :
    ∃ more, kept = (splitLine text).1 ++ more ∧ splitLine kept = ((splitLine text).1, more)
      ∧ more <+: (splitLine text).2 ∧ back <+: more := by
  obtain ⟨hline, hmore⟩ := splitLine_of_isPrefix hkept ((List.prefix_append _ _).trans hread)
  have hsplit := splitLine_append kept
  rw [hline] at hsplit
  rw [← hsplit, List.prefix_append_right_inj] at hread
  exact ⟨(splitLine kept).2, hsplit.symm, Prod.ext hline rfl, hmore, hread⟩

end Text

end CommentBlocks
