import CommentBlocks.Block.Ending
import CommentBlocks.Block.Opening

/-!
# Reading blocks with a cursor

The rules for where blocks begin and end speak about text. Here a cursor follows them. Opening a
block reads its opener or leaves the cursor at its place; closing it reads through its end or, when
the text runs out first, to the end of the source.

## Progress

An opener is never empty and closing never goes back, so a reader that opens a block and closes it
has less to read than before. The scan of a whole source ends because of this.
-/

namespace CommentBlocks

/-! ## Openers are read from the front of the text -/

theorem plainOpening_eq_opened {form : Delimited} {text body last : Text} {block : OpenBlock}
    (h : plainOpening form text = .opened block body last) :
    form.openers.find? (Text.startsWith · text) = some last ∧ block = .delimited form
      ∧ body = [] := by
  unfold plainOpening at h
  split at h
  · next hfind =>
    rw [Opening.opened.injEq] at h
    obtain ⟨rfl, rfl, rfl⟩ := h
    exact ⟨hfind, rfl, rfl⟩
  · simp at h

theorem heredocOpening_eq_opened {text body last : Text} {block : OpenBlock}
    (h : heredocOpening text = .opened block body last) :
    ∃ rest label, text = heredocOpener ++ rest
      ∧ last = (Text.splitLine (rest.dropWhile isSpace)).1
      ∧ HeredocLabel.ofLine? last = some label ∧ block = .heredoc label
      ∧ body = heredocOpener ++ rest.takeWhile isSpace := by
  unfold heredocOpening at h
  split at h
  · simp at h
  · next rest hrest =>
    dsimp only at h
    split at h
    · next label hlabel =>
      rw [Opening.opened.injEq] at h
      obtain ⟨rfl, rfl, rfl⟩ := h
      exact ⟨rest, label, (Text.afterToken?_eq_some_iff.mp hrest).2, rfl, hlabel, rfl, rfl⟩
    · simp at h

theorem anchoredOpening_eq_opened {opener closer body last : Text} {place : Place}
    {block : OpenBlock} (h : anchoredOpening opener closer place = .opened block body last) :
    place.position.character = 0
      ∧ (Text.afterToken? opener place.rest).bind Text.lineBreak? = some last
      ∧ block = .delimited (.anchored opener closer) ∧ body = opener := by
  unfold anchoredOpening at h
  split at h
  · simp at h
  · next hcolumn =>
    split at h
    · next hbreak =>
      rw [Opening.opened.injEq] at h
      obtain ⟨rfl, rfl, rfl⟩ := h
      exact ⟨Decidable.not_not.mp hcolumn, hbreak, rfl, rfl⟩
    · simp at h

theorem plainOpening_opened {form : Delimited} {text body last : Text} {block : OpenBlock}
    (h : plainOpening form text = .opened block body last) :
    body ++ last ≠ [] ∧ ∃ rest, text = body ++ last ++ rest := by
  obtain ⟨hfind, -, rfl⟩ := plainOpening_eq_opened h
  have hopener : Text.startsWith last text = true := by simpa using List.find?_some hfind
  simpa using Text.startsWith_iff.mp hopener

theorem heredocOpening_opened {text body last : Text} {block : OpenBlock}
    (h : heredocOpening text = .opened block body last) :
    body ++ last ≠ [] ∧ ∃ rest, text = body ++ last ++ rest := by
  obtain ⟨rest, -, rfl, rfl, -, -, rfl⟩ := heredocOpening_eq_opened h
  refine ⟨by simp [heredocOpener], (Text.splitLine (rest.dropWhile isSpace)).2, ?_⟩
  simp

theorem anchoredOpening_opened {opener closer body last : Text} {place : Place} {block : OpenBlock}
    (h : anchoredOpening opener closer place = .opened block body last) :
    body ++ last ≠ [] ∧ ∃ rest, place.rest = body ++ last ++ rest := by
  obtain ⟨-, hbreak, -, rfl⟩ := anchoredOpening_eq_opened h
  obtain ⟨rest, hrest, hline⟩ := Option.bind_eq_some_iff.mp hbreak
  obtain ⟨hne, hplace⟩ := Text.afterToken?_eq_some_iff.mp hrest
  obtain ⟨-, more, rfl⟩ := Text.eq_append_of_lineBreak? hline
  exact ⟨by simp [hne], more, by simp [hplace]⟩

theorem Block.openingAt_opened {place : Place} {block : Block} {opened : OpenBlock}
    {body last : Text} (h : block.openingAt place = .opened opened body last) :
    body ++ last ≠ [] ∧ ∃ rest, place.rest = body ++ last ++ rest := by
  unfold Block.openingAt at h
  split at h
  · exact heredocOpening_opened h
  · exact anchoredOpening_opened h
  · exact plainOpening_opened h

theorem Block.openingAt_eq_opened {place : Place} {block : Block} {opened : OpenBlock}
    {body last : Text} (h : block.openingAt place = .opened opened body last) :
    (∃ form, block = .delimited form ∧ opened = .delimited form)
      ∨ ∃ label, block = .heredoc ∧ opened = .heredoc label
        ∧ HeredocLabel.ofLine? last = some label := by
  unfold Block.openingAt at h
  split at h
  · obtain ⟨-, label, -, -, hlabel, hopened, -⟩ := heredocOpening_eq_opened h
    exact Or.inr ⟨label, rfl, hopened, hlabel⟩
  · exact Or.inl ⟨_, rfl, (anchoredOpening_eq_opened h).2.2.1⟩
  · exact Or.inl ⟨_, rfl, (plainOpening_eq_opened h).2.1⟩

/-! ## Opening -/

namespace Cursor

/-- Read the opener of `block` if the block begins here. Otherwise the cursor keeps its place. -/
def openBlock (cursor : Cursor) (block : Block) : Option OpenBlock × Cursor :=
  match block.openingAt cursor.here with
  | .refused returned => (none, if returned then cursor.returnTo cursor.here else cursor)
  | .opened opened body last =>
    (some opened,
      { cursor with
        here := cursor.here.after (body ++ last), undo := some (cursor.here.after body) })

def openFirst (cursor : Cursor) : List Block → Option OpenBlock × Cursor
  | [] => (none, cursor)
  | block :: blocks =>
    match cursor.openBlock block with
    | (some opened, inside) => (some opened, inside)
    | (none, same) => same.openFirst blocks

theorem here_openBlock_of_none {cursor after : Cursor} {block : Block}
    (h : cursor.openBlock block = (none, after)) : after.here = cursor.here := by
  unfold openBlock at h
  split at h
  · next returned _ =>
    simp only [Prod.mk.injEq, true_and] at h
    rw [← h]
    cases returned <;> rfl
  · simp at h

theorem length_rest_openBlock_of_some {cursor after : Cursor} {block : Block} {opened : OpenBlock}
    (h : cursor.openBlock block = (some opened, after)) :
    after.here.rest.length < cursor.here.rest.length := by
  unfold openBlock at h
  split at h
  · simp at h
  · next opened' body last hopen =>
    simp only [Prod.mk.injEq] at h
    rw [← h.2]
    obtain ⟨hne, rest, hrest⟩ := Block.openingAt_opened hopen
    have := List.length_pos_iff.mpr hne
    have hlen := congrArg List.length hrest
    rw [List.length_append] at hlen
    simp only [Place.length_rest_after]
    omega

theorem here_openFirst_of_none {cursor after : Cursor} {blocks : List Block}
    (h : cursor.openFirst blocks = (none, after)) : after.here = cursor.here := by
  induction blocks generalizing cursor with
  | nil => simp_all [openFirst]
  | cons block blocks ih =>
    unfold openFirst at h
    split at h
    · simp at h
    · next same hsame => rw [ih h, here_openBlock_of_none hsame]

theorem length_rest_openFirst_of_some {cursor after : Cursor} {blocks : List Block}
    {opened : OpenBlock} (h : cursor.openFirst blocks = (some opened, after)) :
    after.here.rest.length < cursor.here.rest.length := by
  induction blocks generalizing cursor with
  | nil => simp [openFirst] at h
  | cons block blocks ih =>
    unfold openFirst at h
    split at h
    · next inside hinside => exact length_rest_openBlock_of_some (h ▸ hinside)
    · next same hsame => exact here_openBlock_of_none hsame ▸ ih h

/-! ## Closing -/

end Cursor

/-- What reading an opened block comes to. -/
structure BlockEnd where
  /-- The content, line by line; none if the block did not close. -/
  lines : List Text
  /-- Whether the block closed before the source ended. -/
  wellTerminated : Bool
deriving DecidableEq

namespace Cursor

/-- Read through the end of an opened block, or to the end of the source. There the cursor has
taken one more step, which found nothing, so a rollback stays at the end. -/
def closeBlock (cursor : Cursor) (block : OpenBlock) : BlockEnd × Cursor :=
  match block.ending? cursor.rest with
  | none => (⟨[], false⟩, cursor.takeRest.2.takeRest.2)
  | some ending =>
    (⟨ending.lines, true⟩,
      { cursor with
        here := cursor.here.after ending.read
        undo := ending.last.map fun _ ↦ cursor.here.after ending.body })

theorem length_rest_closeBlock (cursor : Cursor) (block : OpenBlock) :
    (cursor.closeBlock block).2.here.rest.length ≤ cursor.here.rest.length := by
  unfold closeBlock
  split
  · simp [takeRest, rest]
  · simp

end Cursor

end CommentBlocks
