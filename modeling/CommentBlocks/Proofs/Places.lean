import CommentBlocks.Document.Cursor
import CommentBlocks.Proofs.Utf8

/-!
# The places of a source

A source of `n` characters has `n + 1` places, one before each character and one at the end. The
place with number `i` is told by `i` alone: its position is what reading the first `i` characters
makes of the start, and what is unread there is the rest. So lines, characters and bytes cannot get
out of step, and comparing positions is comparing numbers.
-/

namespace CommentBlocks

/-! ## Positions after a text -/

namespace Position

@[simp] theorem byteOffset_advanceText (p : Position) (text : Text) :
    (p.advanceText text).byteOffset = p.byteOffset + text.byteLength := by
  induction text generalizing p with
  | nil => rfl
  | cons c text ih =>
    have hc : (p.advance c).byteOffset = p.byteOffset + c.utf8Size := by
      unfold advance
      split <;> rfl
    rw [advanceText_cons, ih, hc, Text.byteLength_cons, Nat.add_assoc]

theorem line_le_line_advanceText (p : Position) (text : Text) :
    p.line ≤ (p.advanceText text).line := by
  induction text generalizing p with
  | nil => exact Nat.le_refl _
  | cons c text ih =>
    have hc : p.line ≤ (p.advance c).line := by
      unfold advance
      split
      · exact Nat.le_succ _
      · exact Nat.le_refl _
    rw [advanceText_cons]
    exact Nat.le_trans hc (ih _)

theorem character_advanceText {p : Position} {text : Text}
    (h : (p.advanceText text).line = p.line) :
    (p.advanceText text).character = p.character + text.length := by
  induction text generalizing p with
  | nil => rfl
  | cons c text ih =>
    rw [advanceText_cons] at h ⊢
    have hle := line_le_line_advanceText (p.advance c) text
    by_cases hc : c = '\n'
    · -- a line feed would lead to a later line, and there is no way back
      rw [advance, if_pos hc] at h hle
      simp only at hle
      omega
    · rw [advance, if_neg hc] at h ⊢
      rw [ih h, List.length_cons, Nat.add_assoc, Nat.add_comm 1]

/-- Reading goes forward: to a later line, or further on the same one. -/
theorem advanceText_later (p : Position) {text : Text} (h : text ≠ []) :
    p.line < (p.advanceText text).line
      ∨ p.line = (p.advanceText text).line ∧ p.character < (p.advanceText text).character := by
  rcases Nat.lt_or_eq_of_le (p.line_le_line_advanceText text) with hlt | heq
  · exact Or.inl hlt
  · refine Or.inr ⟨heq, ?_⟩
    have hpos := List.length_pos_iff.mpr h
    rw [character_advanceText heq.symm]
    omega

theorem compare_advanceText (p : Position) {text : Text} (h : text ≠ []) :
    compare p (p.advanceText text) = .lt := by
  change (compare p.line _).then _ = .lt
  rcases p.advanceText_later h with hline | ⟨hline, hcharacter⟩
  · rw [Nat.compare_eq_lt.mpr hline]
    rfl
  · rw [Nat.compare_eq_eq.mpr hline, Nat.compare_eq_lt.mpr hcharacter]
    rfl

theorem compare_advanceText_left (p : Position) {text : Text} (h : text ≠ []) :
    compare (p.advanceText text) p = .gt := by
  change (compare (p.advanceText text).line _).then _ = .gt
  rcases p.advanceText_later h with hline | ⟨hline, hcharacter⟩
  · rw [Nat.compare_eq_gt.mpr hline]
    rfl
  · rw [Nat.compare_eq_eq.mpr hline.symm, Nat.compare_eq_gt.mpr hcharacter]
    rfl

theorem compare_self (p : Position) : compare p p = .eq := by
  change (compare p.line _).then _ = .eq
  rw [Nat.compare_eq_eq.mpr rfl, Nat.compare_eq_eq.mpr rfl, Nat.compare_eq_eq.mpr rfl]
  rfl

end Position

/-! ## Places by number -/

namespace Source

variable (source : Source)

/-- The position of the character with number `index`. -/
def positionAt (index : Nat) : Position := source.start.advanceText (source.text.take index)

def placeAt (index : Nat) : Place := ⟨source.positionAt index, source.text.drop index⟩

@[simp] theorem position_placeAt (index : Nat) :
    (source.placeAt index).position = source.positionAt index := rfl

@[simp] theorem rest_placeAt (index : Nat) :
    (source.placeAt index).rest = source.text.drop index := rfl

theorem byteOffset_positionAt (index : Nat) :
    (source.positionAt index).byteOffset
      = source.start.byteOffset + Text.byteLength (source.text.take index) :=
  Position.byteOffset_advanceText _ _

theorem splitAtByte?_positionAt (index : Nat) :
    Text.splitAtByte? ((source.positionAt index).byteOffset - source.start.byteOffset) source.text
      = some (source.text.take index, source.text.drop index) := by
  rw [Text.splitAtByte?_eq_some_iff, byteOffset_positionAt]
  exact ⟨(List.take_append_drop _ _).symm, by omega⟩

theorem take_append_between {first last : Nat} (h : first ≤ last) :
    source.text.take first ++ (source.text.drop first).take (last - first)
      = source.text.take last := by
  rw [← List.take_add, Nat.add_sub_cancel' h]

theorem positionAt_eq_advanceText {first last : Nat} (h : first ≤ last) :
    source.positionAt last
      = (source.positionAt first).advanceText ((source.text.drop first).take (last - first)) := by
  rw [positionAt, positionAt, ← Position.advanceText_append, source.take_append_between h]

variable {source}

theorem after_placeAt {index : Nat} {text rest : Text} (h : source.text.drop index = text ++ rest) :
    (source.placeAt index).after text = source.placeAt (index + text.length) := by
  have htake : (source.text.drop index).take text.length = text := by rw [h, List.take_left]
  rw [Place.after, placeAt, placeAt, positionAt, positionAt, List.take_add, htake,
    Position.advanceText_append, List.drop_drop]

/-- **Positions are in the order of their numbers.** -/
theorem isLE_compare_positionAt_iff {first last : Nat} (hfirst : first ≤ source.text.length)
    (hlast : last ≤ source.text.length) :
    (compare (source.positionAt first) (source.positionAt last)).isLE = true ↔ first ≤ last := by
  have hbetween : ∀ {i j : Nat}, i < j → j ≤ source.text.length →
      (source.text.drop i).take (j - i) ≠ [] := by
    intro i j hij hj hnil
    have hlen := congrArg List.length hnil
    rw [List.length_take, List.length_drop, List.length_nil] at hlen
    omega
  rcases Nat.lt_trichotomy first last with hlt | rfl | hgt
  · rw [source.positionAt_eq_advanceText (Nat.le_of_lt hlt),
      Position.compare_advanceText _ (hbetween hlt hlast)]
    exact iff_of_true rfl (Nat.le_of_lt hlt)
  · rw [Position.compare_self]
    exact iff_of_true rfl (Nat.le_refl first)
  · rw [source.positionAt_eq_advanceText (Nat.le_of_lt hgt),
      Position.compare_advanceText_left _ (hbetween hgt hfirst)]
    exact iff_of_false Bool.false_ne_true (Nat.not_le_of_gt hgt)

end Source

end CommentBlocks
