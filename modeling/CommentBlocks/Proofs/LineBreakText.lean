import CommentBlocks.Proofs.TruncatedText

/-!
# Two ways to break lines

Some files end a line with a line feed, others with a carriage return and a line feed. `toCrlf`
turns a text of the first kind into one of the second, and `toLf` goes back. This file compares what
the operations on text make of the two.

Tokens without line breaks do not see the difference (`afterToken?_toCrlf`), and lines are cut at
the same places (`splitLine_toCrlf`). White space does see it, because a carriage return is a space
like any other while a line feed is not: skipping the spaces before a line break eats half of the
break. That does no harm where a token is looked for next, as neither half begins one.
-/

namespace CommentBlocks

namespace Text

/-! ## Writing line breaks -/

/-- The text with a carriage return before every line feed. -/
def toCrlf (text : Text) : Text := text.flatMap fun c ↦ if c = '\n' then ['\r', '\n'] else [c]

/-- The text with a line feed for every carriage return and line feed. -/
def toLf : Text → Text
  | [] => []
  | [c] => [c]
  | c :: d :: rest => if c = '\r' ∧ d = '\n' then '\n' :: toLf rest else c :: toLf (d :: rest)

/-- Neither a carriage return nor a line feed occurs. -/
def IsUnbroken (text : Text) : Prop := '\r' ∉ text ∧ '\n' ∉ text

instance (text : Text) : Decidable text.IsUnbroken := inferInstanceAs (Decidable (_ ∧ _))

theorem IsUnbroken.mono {s t : Text} (h : t.IsUnbroken) (hsubset : s ⊆ t) : s.IsUnbroken :=
  ⟨fun hmem ↦ h.1 (hsubset hmem), fun hmem ↦ h.2 (hsubset hmem)⟩

section Crlf

variable {text token : Text}

@[simp] theorem toCrlf_nil : toCrlf [] = [] := rfl

@[simp] theorem toCrlf_feed (rest : Text) : toCrlf ('\n' :: rest) = '\r' :: '\n' :: toCrlf rest :=
  rfl

theorem toCrlf_cons {c : Char} (hc : c ≠ '\n') (rest : Text) :
    toCrlf (c :: rest) = c :: toCrlf rest := by
  rw [toCrlf, List.flatMap_cons, if_neg hc]
  rfl

@[simp] theorem toCrlf_append (s t : Text) : toCrlf (s ++ t) = toCrlf s ++ toCrlf t :=
  List.flatMap_append

theorem toCrlf_flatten (pieces : List Text) :
    toCrlf pieces.flatten = (pieces.map toCrlf).flatten := by
  induction pieces with
  | nil => rfl
  | cons piece pieces ih =>
    rw [List.flatten_cons, List.map_cons, List.flatten_cons, toCrlf_append, ih]

theorem toCrlf_eq_self (h : '\n' ∉ text) : toCrlf text = text := by
  induction text with
  | nil => rfl
  | cons c text ih =>
    rw [List.mem_cons, not_or] at h
    rw [toCrlf_cons (Ne.symm h.1), ih h.2]

@[simp] theorem toCrlf_eq_nil_iff : toCrlf text = [] ↔ text = [] := by
  cases text with
  | nil => exact iff_of_true rfl rfl
  | cons c text =>
    refine iff_of_false ?_ (List.cons_ne_nil _ _)
    by_cases hc : c = '\n'
    · rw [hc, toCrlf_feed]
      exact List.cons_ne_nil _ _
    · rw [toCrlf_cons hc]
      exact List.cons_ne_nil _ _

theorem isEmpty_toCrlf (text : Text) : List.isEmpty (toCrlf text) = List.isEmpty text := by
  rw [Bool.eq_iff_iff, List.isEmpty_iff, List.isEmpty_iff, toCrlf_eq_nil_iff]

/-! ## Tokens -/

theorem afterToken?_of_break {c : Char} (htoken : token.IsUnbroken) (hc : c = '\r' ∨ c = '\n')
    (rest : Text) : afterToken? token (c :: rest) = none := by
  apply Option.eq_none_iff_forall_ne_some.mpr
  intro after hafter
  obtain ⟨hne, htext⟩ := afterToken?_eq_some_iff.mp hafter
  obtain ⟨first, others, rfl⟩ := List.exists_cons_of_ne_nil hne
  obtain ⟨rfl, -⟩ := List.cons.inj htext
  rcases hc with rfl | rfl
  · exact htoken.1 List.mem_cons_self
  · exact htoken.2 List.mem_cons_self

theorem isPrefix_of_isPrefix_toCrlf (htoken : token.IsUnbroken) (h : token <+: toCrlf text) :
    token <+: text := by
  induction token generalizing text with
  | nil => exact List.nil_prefix
  | cons t token ih =>
    have hothers : IsUnbroken token := htoken.mono (List.subset_cons_self _ _)
    cases text with
    | nil => exact absurd (List.prefix_nil.mp h) (List.cons_ne_nil _ _)
    | cons c text =>
      by_cases hc : c = '\n'
      · rw [hc, toCrlf_feed, List.cons_prefix_cons] at h
        exact absurd (h.1 ▸ List.mem_cons_self) htoken.1
      · rw [toCrlf_cons hc, List.cons_prefix_cons] at h
        exact List.cons_prefix_cons.mpr ⟨h.1, ih hothers h.2⟩

/-- **A token without line breaks is found in both texts alike.** -/
theorem afterToken?_toCrlf (htoken : token.IsUnbroken) (text : Text) :
    afterToken? token (toCrlf text) = (afterToken? token text).map toCrlf := by
  cases h : afterToken? token text with
  | some rest =>
    obtain ⟨hne, rfl⟩ := afterToken?_eq_some_iff.mp h
    rw [toCrlf_append, toCrlf_eq_self htoken.2, afterToken?_append hne, Option.map_some]
  | none =>
    apply Option.eq_none_iff_forall_ne_some.mpr
    intro rest hrest
    obtain ⟨hne, htext⟩ := afterToken?_eq_some_iff.mp hrest
    obtain ⟨more, rfl⟩ := isPrefix_of_isPrefix_toCrlf htoken ⟨rest, htext.symm⟩
    rw [afterToken?_append hne] at h
    exact Option.some_ne_none _ h

theorem startsWith_toCrlf (htoken : token.IsUnbroken) (text : Text) :
    startsWith token (toCrlf text) = startsWith token text := by
  rw [startsWith, startsWith, afterToken?_toCrlf htoken, Option.isSome_map]

/-! ## Lines -/

theorem mem_splitLine {c : Char} :
    c ∈ text ↔ c ∈ (splitLine text).1 ∨ c ∈ (splitLine text).2 := by
  rw [← List.mem_append, splitLine_append]

theorem splitLine_toCrlf (text : Text) :
    splitLine (toCrlf text) = (toCrlf (splitLine text).1, toCrlf (splitLine text).2) := by
  induction text with
  | nil => rfl
  | cons c text ih =>
    by_cases hc : c = '\n'
    · subst hc
      rfl
    · rw [toCrlf_cons hc, splitLine, if_neg hc, ih, splitLine, if_neg hc, toCrlf_cons hc]

theorem lineBreak?_toCrlf (htext : '\r' ∉ text) :
    lineBreak? (toCrlf text) = (lineBreak? text).map toCrlf := by
  have hother : ∀ (c : Char) (rest : Text), c ≠ '\n' → c ≠ '\r' →
      lineBreak? (c :: rest) = none := by
    intro c rest hfeed hreturn
    rw [lineBreak?, if_neg, if_neg]
    · rw [startsWith_iff]
      rintro ⟨-, more, hmore⟩
      exact hreturn (List.cons.inj hmore).1
    · rw [startsWith_iff]
      rintro ⟨-, more, hmore⟩
      exact hfeed (List.cons.inj hmore).1
  cases text with
  | nil => rfl
  | cons c text =>
    by_cases hc : c = '\n'
    · subst hc
      rfl
    · have hreturn : c ≠ '\r' := by
        rintro rfl
        exact htext List.mem_cons_self
      rw [toCrlf_cons hc, hother c _ hc hreturn, hother c _ hc hreturn, Option.map_none]

/-- A line feed stands nowhere but at the end. -/
def IsLine (line : Text) : Prop := '\n' ∉ line.dropLast

theorem isLine_splitLine (text : Text) : IsLine (splitLine text).1 := by
  induction text with
  | nil => exact List.not_mem_nil
  | cons c text ih =>
    rw [splitLine]
    by_cases hc : c = '\n'
    · rw [if_pos hc]
      exact List.not_mem_nil
    · rw [if_neg hc]
      cases hline : (splitLine text).1 with
      | nil => exact List.not_mem_nil
      | cons d line =>
        rw [IsLine, hline] at ih
        rw [IsLine, List.dropLast_cons_cons, List.mem_cons, not_or]
        exact ⟨Ne.symm hc, ih⟩

theorem IsLine.cases {line : Text} (h : IsLine line) (hreturn : '\r' ∉ line) :
    ∃ body, IsUnbroken body ∧ (line = body ∨ line = body ++ ['\n']) := by
  rcases List.eq_nil_or_concat line with rfl | ⟨front, last, rfl⟩
  · exact ⟨[], ⟨List.not_mem_nil, List.not_mem_nil⟩, Or.inl rfl⟩
  · rw [List.concat_eq_append] at h hreturn ⊢
    rw [IsLine, List.dropLast_concat] at h
    rw [List.mem_append, not_or] at hreturn
    by_cases hlast : last = '\n'
    · exact ⟨front, ⟨hreturn.1, h⟩, Or.inr (by rw [hlast])⟩
    · refine ⟨front ++ [last], ⟨?_, ?_⟩, Or.inl rfl⟩
      · rw [List.mem_append, not_or]
        exact hreturn
      · rw [List.mem_append, not_or, List.mem_singleton]
        exact ⟨h, Ne.symm hlast⟩

/-! ## Spaces -/

theorem isSpace_iff {c : Char} : isSpace c = true ↔ isWhiteSpace c = true ∧ c ≠ '\n' := by
  rw [isSpace, Bool.and_eq_true, bne_iff_ne]

theorem not_mem_takeWhile_isSpace (text : Text) : '\n' ∉ text.takeWhile isSpace := by
  intro hmem
  have hspace := List.all_eq_true.mp List.all_takeWhile '\n' hmem
  exact (isSpace_iff.mp hspace).2 rfl

/-- Spaces are skipped alike, except that those before a line break go on through its carriage
return. -/
theorem skip_spaces_toCrlf (text : Text) :
    (∃ rest, text.dropWhile isSpace = '\n' :: rest
        ∧ (toCrlf text).dropWhile isSpace = '\n' :: toCrlf rest)
      ∨ (toCrlf text).takeWhile isSpace = text.takeWhile isSpace
        ∧ (toCrlf text).dropWhile isSpace = toCrlf (text.dropWhile isSpace) := by
  have hspaces : ∀ c ∈ text.takeWhile isSpace, isSpace c = true :=
    List.all_eq_true.mp List.all_takeWhile
  have hsplit : toCrlf text = text.takeWhile isSpace ++ toCrlf (text.dropWhile isSpace) := by
    nth_rewrite 1 [← List.takeWhile_append_dropWhile (p := isSpace) (l := text)]
    rw [toCrlf_append, toCrlf_eq_self (not_mem_takeWhile_isSpace text)]
  rw [hsplit, List.takeWhile_append_of_pos hspaces, List.dropWhile_append_of_pos hspaces]
  cases hrest : text.dropWhile isSpace with
  | nil => exact Or.inr ⟨by simp, rfl⟩
  | cons c rest =>
    by_cases hc : c = '\n'
    · subst hc
      exact Or.inl ⟨rest, rfl, rfl⟩
    · have hspace : ¬isSpace c = true := by
        have hhead := List.head?_dropWhile_not isSpace text
        rw [hrest] at hhead
        exact Bool.eq_false_iff.mp hhead
      rw [toCrlf_cons hc, List.takeWhile_cons_of_neg hspace, List.dropWhile_cons_of_neg hspace,
        List.append_nil]
      exact Or.inr ⟨rfl, rfl⟩

theorem afterToken?_skip_spaces_toCrlf (htoken : token.IsUnbroken) (text : Text) :
    afterToken? token ((toCrlf text).dropWhile isSpace)
      = (afterToken? token (text.dropWhile isSpace)).map toCrlf := by
  rcases skip_spaces_toCrlf text with ⟨rest, hnarrow, hwide⟩ | ⟨-, hdrop⟩
  · rw [hnarrow, hwide, afterToken?_of_break htoken (Or.inr rfl),
      afterToken?_of_break htoken (Or.inr rfl), Option.map_none]
  · rw [hdrop, afterToken?_toCrlf htoken]

theorem isBlank_append (s t : Text) : isBlank (s ++ t) = (isBlank s && isBlank t) :=
  List.all_append

theorem isBlank_toCrlf (text : Text) : isBlank (toCrlf text) = isBlank text := by
  induction text with
  | nil => rfl
  | cons c text ih =>
    by_cases hc : c = '\n'
    · rw [hc, toCrlf_feed]
      exact ih
    · rw [toCrlf_cons hc, isBlank, List.all_cons, isBlank, List.all_cons]
      exact congrArg (isWhiteSpace c && ·) ih

end Crlf

/-! ## Going back -/

theorem toLf_cons {c : Char} (hc : c ≠ '\r') (rest : Text) : toLf (c :: rest) = c :: toLf rest := by
  cases rest with
  | nil => rfl
  | cons d rest => rw [toLf, if_neg fun h ↦ hc h.1]

theorem toLf_append {body : Text} (h : '\r' ∉ body) (rest : Text) :
    toLf (body ++ rest) = body ++ toLf rest := by
  induction body with
  | nil => rfl
  | cons c body ih =>
    rw [List.mem_cons, not_or] at h
    rw [List.cons_append, toLf_cons (Ne.symm h.1), ih h.2, List.cons_append]

end Text

end CommentBlocks
