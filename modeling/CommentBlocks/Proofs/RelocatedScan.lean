import CommentBlocks.Proofs.LineEntries
import CommentBlocks.Proofs.SeekPoints
import Mathlib.Data.List.Forall2

/-!
# Scanning a text somewhere else

A source may be a part of a document, and its positions are those of the document. Here the same
text stands at two places, `first` and `second`. What is found in it is the same; lines and byte
offsets are shifted by as much as the two places are apart, and characters are as well as long as no
line feed has been read, and not at all afterwards.

A scan looks at the text that is unread and, for blocks anchored to lines, at the column, of which
it asks only whether it is zero. So it is enough that the two starts agree in that. They will agree
ever after, because on the first line the columns grow alike and on later lines they are equal
(`Position.Relocated.character_eq_zero_iff`), and the two scans run in step.
-/

namespace CommentBlocks

/-! ## Positions -/

/-- The positions `p` and `q` of a character in a text that stands at `first` and at `second`. -/
structure Position.Relocated (first second p q : Position) : Prop where
  /-- The text begins no later. -/
  line_le : first.line ≤ p.line
  /-- Lines are as far apart as the starts are. -/
  line : q.line + first.line = p.line + second.line
  /-- Byte offsets are as far apart as the starts are. -/
  byteOffset : q.byteOffset + first.byteOffset = p.byteOffset + second.byteOffset
  /-- On the first line characters are as far apart as the starts are. -/
  character_first : p.line = first.line →
    first.character ≤ p.character ∧ q.character + first.character = p.character + second.character
  /-- On later lines characters are the same. -/
  character_later : p.line ≠ first.line → q.character = p.character

namespace Position.Relocated

variable {first second p q : Position}

theorem start (first second : Position) : Relocated first second first second :=
  ⟨Nat.le_refl _, Nat.add_comm _ _, Nat.add_comm _ _, fun _ ↦ ⟨Nat.le_refl _, Nat.add_comm _ _⟩,
    fun hne ↦ absurd rfl hne⟩

/-- A line feed leaves the first line for good. -/
theorem advance (h : Relocated first second p q) (c : Char) :
    Relocated first second (p.advance c) (q.advance c) := by
  obtain ⟨hle, hline, hoffset, hfirst, hlater⟩ := h
  by_cases hc : c = '\n'
  · rw [Position.advance, Position.advance, if_pos hc, if_pos hc]
    exact ⟨by dsimp only; omega, by dsimp only; omega, by dsimp only; omega,
      fun heq ↦ absurd heq (by dsimp only; omega), fun _ ↦ rfl⟩
  · rw [Position.advance, Position.advance, if_neg hc, if_neg hc]
    refine ⟨hle, hline, by dsimp only; omega, ?_, ?_⟩
    · intro heq
      obtain ⟨hge, hcharacter⟩ := hfirst heq
      exact ⟨by dsimp only; omega, by dsimp only; omega⟩
    · intro hne
      exact congrArg (· + 1) (hlater hne)

theorem advanceText (h : Relocated first second p q) (text : Text) :
    Relocated first second (p.advanceText text) (q.advanceText text) := by
  induction text generalizing p q with
  | nil => exact h
  | cons c text ih => exact ih (h.advance c)

/-- **Columns that start alike stay alike.** -/
theorem character_eq_zero_iff (h : Relocated first second p q)
    (hstart : first.character = 0 ↔ second.character = 0) : p.character = 0 ↔ q.character = 0 := by
  by_cases hline : p.line = first.line
  · obtain ⟨hge, hcharacter⟩ := h.character_first hline
    omega
  · rw [h.character_later hline]

end Position.Relocated

/-! ## Places and turns -/

/-- The block begins in column zero. -/
def Block.IsAnchored (block : Block) : Prop :=
  ∃ opener closer, block = .delimited (.anchored opener closer)

/-- Places in a text that stands at `first` and at `second`. -/
structure Place.Relocated (first second : Position) (place other : Place) : Prop where
  /-- The positions are those of one character. -/
  position : first.Relocated second place.position other.position
  /-- The same text is unread. -/
  rest : other.rest = place.rest

/-- One comment of a text that stands at `first` and at `second`. -/
structure Comment.Relocated (first second : Position) (comment other : Comment) : Prop where
  /-- It begins with one character. -/
  start : first.Relocated second comment.start other.start
  /-- It has the same lines. -/
  lines : other.lines = comment.lines

structure Unterminated.Relocated (first second : Position) (block other : Unterminated) : Prop where
  /-- It begins with one character. -/
  position : first.Relocated second block.position other.position
  /-- It is of the same kind. -/
  kind : other.kind = block.kind

inductive Turn.Relocated (first second : Position) : Turn → Turn → Prop where
  /-- Nothing is left to read. -/
  | finished : Turn.Relocated first second .finished .finished
  /-- Both turns read on, and both have found a comment or neither has. -/
  | moved {comment other : Option Comment} {next otherNext : Place} :
    Option.Rel (Comment.Relocated first second) comment other →
      next.Relocated first second otherNext →
      Turn.Relocated first second (.moved comment next) (.moved other otherNext)
  /-- Both turns find an open block. -/
  | stopped {block other : Unterminated} :
    block.Relocated first second other →
      Turn.Relocated first second (.stopped block) (.stopped other)

/-- The column does not matter to the block, or it starts alike. -/
def Block.Tolerates (block : Block) (first second : Position) : Prop :=
  (first.character = 0 ↔ second.character = 0) ∨ ¬block.IsAnchored

namespace Place.Relocated

variable {first second : Position} {place other : Place} {blocks : List Block}

theorem after (h : place.Relocated first second other) (text : Text) :
    (place.after text).Relocated first second (other.after text) := by
  refine ⟨h.position.advanceText text, ?_⟩
  rw [Place.after, Place.after, h.rest]

/-- **A block begins at both places or at neither**, and with the same opener. -/
theorem openingAt_eq {block : Block} (h : place.Relocated first second other)
    (hblock : block.Tolerates first second) : block.openingAt other = block.openingAt place := by
  rcases block with form | -
  · cases form with
    | anchored opener closer =>
      have hstart := hblock.resolve_right fun hfree ↦ hfree ⟨opener, closer, rfl⟩
      have hcolumn := h.position.character_eq_zero_iff hstart
      change anchoredOpening opener closer other = anchoredOpening opener closer place
      rw [anchoredOpening, anchoredOpening, h.rest]
      simp only [ne_eq, hcolumn]
    | _ => exact congrArg (plainOpening _) h.rest
  · exact congrArg heredocOpening h.rest

theorem findSome?_opening?_eq (h : place.Relocated first second other)
    (hblocks : ∀ block ∈ blocks, block.Tolerates first second) :
    blocks.findSome? other.opening? = blocks.findSome? place.opening? := by
  induction blocks with
  | nil => rfl
  | cons block blocks ih =>
    obtain ⟨hblock, hothers⟩ := List.forall_mem_cons.mp hblocks
    have hopening : other.opening? block = place.opening? block := by
      rw [opening?, opening?, h.openingAt_eq hblock]
    rw [List.findSome?_cons, List.findSome?_cons, hopening, ih hothers]

/-- **Turns run in step.** -/
theorem turn (h : place.Relocated first second other)
    (hblocks : ∀ block ∈ blocks, block.Tolerates first second) :
    Turn.Relocated first second (place.turn blocks) (other.turn blocks) := by
  have hopenings := h.findSome?_opening?_eq hblocks
  rw [Place.turn, Place.turn, hopenings, h.rest]
  by_cases hend : place.rest = []
  · rw [if_pos hend, if_pos hend]
    exact .finished
  rw [if_neg hend, if_neg hend]
  rcases blocks.findSome? place.opening? with - | ⟨opened, opener⟩
  · exact .moved .none (h.after _)
  · dsimp only
    rw [(h.after opener).rest]
    rcases opened.ending? (place.after opener).rest with - | ending
    · exact .stopped ⟨h.position, rfl⟩
    · refine .moved ?_ ((h.after opener).after ending.read)
      split
      · exact .some ⟨h.position, rfl⟩
      · exact .none

end Place.Relocated

/-! ## Surveys -/

/-- Surveys of a text that stands at `first` and at `second`. -/
structure Survey.Relocated (first second : Position) (survey other : Survey) : Prop where
  /-- The same comments are found. -/
  comments : List.Forall₂ (Comment.Relocated first second) survey.comments other.comments
  /-- The same block stops the reading, or none does. -/
  unterminated :
    Option.Rel (Unterminated.Relocated first second) survey.unterminated other.unterminated

theorem Survey.Relocated.following {first second : Position} {survey other : Survey}
    {comment otherComment : Option Comment} (h : survey.Relocated first second other)
    (hcomment : Option.Rel (Comment.Relocated first second) comment otherComment) :
    (survey.following comment.toList).Relocated first second
      (other.following otherComment.toList) := by
  refine ⟨?_, h.unterminated⟩
  rcases hcomment with hsame | -
  · exact .cons hsame h.comments
  · exact h.comments

/-- **The text is surveyed alike at both places.** -/
theorem relocated_survey {first second : Position} {blocks : List Block} {cursor other : Cursor}
    (hblocks : ∀ block ∈ blocks, block.Tolerates first second)
    (h : cursor.here.Relocated first second other.here) :
    (survey blocks cursor).Relocated first second (survey blocks other) := by
  have hturns := h.turn hblocks
  generalize hturn : cursor.here.turn blocks = turn at hturns
  generalize hother : other.here.turn blocks = otherTurn at hturns
  cases hturns with
  | finished =>
    rw [survey_of_finished hturn, survey_of_finished hother]
    exact ⟨.nil, .none⟩
  | stopped hblock =>
    rw [survey_of_stopped hturn, survey_of_stopped hother]
    exact ⟨.nil, .some hblock⟩
  | @moved _ _ next otherNext hcomment hnext =>
    have hless : next.cursor.here.rest.length < cursor.here.rest.length :=
      Place.length_rest_lt_of_turn hturn
    have hlater : (survey blocks next.cursor).Relocated first second
        (survey blocks otherNext.cursor) := relocated_survey hblocks hnext
    rw [survey_of_moved cursor hturn, survey_of_moved other hother]
    exact hlater.following hcomment
termination_by cursor.here.rest.length

/-! ## Entries -/

/-- One entry, made for a text that stands at `first` and at `second`. -/
structure RelocatedEntry (first second : Position) (entry other : Nat × Text) : Prop where
  /-- Lines are as far apart as the starts are. -/
  line : other.1 + first.line = entry.1 + second.line
  /-- The content is the same. -/
  content : other.2 = entry.2

section Entries

variable {first second : Position} {entries others : List (Nat × Text)}

/-- A shift keeps the order of lines, so that an entry goes to the same place. -/
theorem relocated_enterLine {line otherLine : Nat}
    (h : List.Forall₂ (RelocatedEntry first second) entries others)
    (hline : otherLine + first.line = line + second.line) (content : Text) :
    List.Forall₂ (RelocatedEntry first second) (enterLine line content entries)
      (enterLine otherLine content others) := by
  induction h with
  | nil => exact .cons ⟨hline, rfl⟩ .nil
  | @cons entry other entries others hentry hentries ih =>
    have hshift := hentry.line
    rw [enterLine, enterLine]
    by_cases hless : entry.1 < line
    · have hother : other.1 < otherLine := by omega
      rw [if_pos hless, if_pos hother]
      exact .cons ⟨hline, rfl⟩ (.cons hentry hentries)
    · have hother : ¬other.1 < otherLine := by omega
      rw [if_neg hless, if_neg hother]
      by_cases heq : line = entry.1
      · have hotherEq : otherLine = other.1 := by omega
        rw [if_pos heq, if_pos hotherEq]
        exact .cons ⟨hline, rfl⟩ hentries
      · have hotherNe : otherLine ≠ other.1 := by omega
        rw [if_neg heq, if_neg hotherNe]
        exact .cons hentry ih

theorem relocated_foldl_enterComment {comments otherComments : List Comment} (config : ScanConfig)
    (hcomments : List.Forall₂ (Comment.Relocated first second) comments otherComments)
    (h : List.Forall₂ (RelocatedEntry first second) entries others) :
    List.Forall₂ (RelocatedEntry first second) (comments.foldl (enterComment config) entries)
      (otherComments.foldl (enterComment config) others) := by
  induction hcomments generalizing entries others with
  | nil => exact h
  | @cons comment other _ _ hcomment _ ih =>
    apply ih
    have hline : other.line + first.line = comment.line + second.line := by
      have hstart := hcomment.start.line
      rw [Comment.line, Comment.line, Position.displayLine, Position.displayLine]
      omega
    have hcontent : other.content? config = comment.content? config := by
      rw [Comment.content?, Comment.content?, hcomment.lines]
    rw [enterComment, enterComment, hcontent]
    rcases comment.content? config with - | content
    · exact h
    · exact relocated_enterLine h hline content

end Entries

/-! ## Scans -/

namespace Source

/-- **A scan moves with its text.** Let a text stand at two places that both are in column zero, or
both are not; the columns do not matter if no block of the language is anchored to lines. The two
scans have the same blocks, on lines that are as far apart as the places, and the same open block,
if there is one. Its line and its byte offset are as far apart as those of the places, and so is its
character on the first line of the text, while on later lines it is the same. -/
theorem scan_relocated (profile : Profile) (config : ScanConfig) (text : Text) (origin : Origin)
    (first second : Position)
    (h : (first.character = 0 ↔ second.character = 0)
      ∨ ∀ block ∈ profile.blocks, ¬block.IsAnchored) :
    let scan := (⟨text, origin, first⟩ : Source).scan profile config
    let other := (⟨text, origin, second⟩ : Source).scan profile config
    List.Forall₂
        (fun (block moved : ExtractedBlock) ↦
          (moved.startLine : Int) = block.startLine + (second.line - first.line)
          ∧ moved.content = block.content ∧ moved.origin = block.origin)
        scan.blocks other.blocks
      ∧ Option.Rel
        (fun (block moved : Unterminated) ↦ moved.kind = block.kind
          ∧ (moved.position.line : Int) = block.position.line + (second.line - first.line)
          ∧ (moved.position.byteOffset : Int)
            = block.position.byteOffset + (second.byteOffset - first.byteOffset)
          ∧ (moved.position.character : Int) = if block.position.line = first.line then
              (block.position.character + (second.character - first.character) : Int)
            else block.position.character)
        scan.unterminated other.unterminated := by
  intro scan other
  have hblocks : ∀ block ∈ profile.blocks, block.Tolerates first second := by
    intro block hblock
    exact h.imp_right fun hfree ↦ hfree block hblock
  have hsurvey : (survey profile.blocks (⟨text, origin, first⟩ : Source).cursor).Relocated
      first second (survey profile.blocks (⟨text, origin, second⟩ : Source).cursor) :=
    relocated_survey hblocks ⟨.start first second, rfl⟩
  constructor
  · have hentries := relocated_foldl_enterComment config hsurvey.comments .nil
    rw [scan_blocks, scan_blocks, recordedBlocks, recordedBlocks, List.forall₂_map_left_iff,
      List.forall₂_map_right_iff, List.forall₂_reverse_iff]
    refine hentries.imp ?_
    intro entry moved hentry
    have hline := hentry.line
    exact ⟨by dsimp only; omega, hentry.content, rfl⟩
  · have hstop : Option.Rel (Unterminated.Relocated first second) scan.unterminated
        other.unterminated := hsurvey.unterminated
    generalize scan.unterminated = stop at hstop
    generalize other.unterminated = otherStop at hstop
    rcases hstop with @⟨block, moved, hblock⟩ | -
    · obtain ⟨-, hline, hoffset, hfirst, hlater⟩ := hblock.position
      refine .some ⟨hblock.kind, by omega, by omega, ?_⟩
      by_cases hsame : block.position.line = first.line
      · obtain ⟨-, hcharacter⟩ := hfirst hsame
        rw [if_pos hsame]
        omega
      · rw [if_neg hsame, hlater hsame]
    · exact .none

/-- A comment and an open string on the first line, behind three characters and behind seven. -/
theorem scan_relocated_open_string :
    let profile : Profile :=
      ⟨"x", "X", [], [.delimited (.anchored ['='] ['=']), .comment "/*" "*/", .verbatim "\"" "\""]⟩
    let text : Text := "/*one*/ \"".toList
    let scan := (⟨text, ⟨"a"⟩, ⟨4, 3, 20⟩⟩ : Source).scan profile ⟨1⟩
    let other := (⟨text, ⟨"a"⟩, ⟨9, 7, 15⟩⟩ : Source).scan profile ⟨1⟩
    scan.blocks = [⟨⟨"a"⟩, 5, "one".toList⟩] ∧ scan.unterminated = some ⟨⟨4, 11, 28⟩, .string⟩
      ∧ (∃ block, other.blocks = [block] ∧ block.startLine = 10 ∧ block.content = "one".toList)
      ∧ ∃ stop, other.unterminated = some stop ∧ stop.kind = .string ∧ stop.position.line = 9
        ∧ stop.position.character = 15 ∧ stop.position.byteOffset = 23 := by
  intro profile text scan other
  have hblocks : scan.blocks = [⟨⟨"a"⟩, 5, "one".toList⟩] := by
    decide +kernel +zetaReduce
  have hstop : scan.unterminated = some ⟨⟨4, 11, 28⟩, .string⟩ := by
    decide +kernel +zetaReduce
  obtain ⟨hmoved, hmovedStop⟩ :=
    scan_relocated profile ⟨1⟩ text ⟨"a"⟩ ⟨4, 3, 20⟩ ⟨9, 7, 15⟩ (Or.inl (by decide))
  change List.Forall₂ _ scan.blocks other.blocks at hmoved
  change Option.Rel _ scan.unterminated other.unterminated at hmovedStop
  rw [hblocks] at hmoved
  rw [hstop] at hmovedStop
  generalize other.blocks = blocks at hmoved ⊢
  generalize other.unterminated = unterminated at hmovedStop ⊢
  rcases hmoved with - | @⟨-, block, -, -, ⟨hline, hcontent, -⟩, ⟨⟩⟩
  rcases hmovedStop with @⟨-, stop, hkind, hstopLine, hoffset, hcharacter⟩
  dsimp only at hline hstopLine hoffset hcharacter
  rw [if_pos rfl] at hcharacter
  exact ⟨hblocks, hstop, ⟨block, rfl, by omega, hcontent⟩,
    stop, rfl, hkind, by omega, by omega, by omega⟩

end Source

end CommentBlocks
