import CommentBlocks.Proofs.BlockLoops
import CommentBlocks.Proofs.CursorRuns
import CommentBlocks.Proofs.SeekPoints

/-!
# What reading a block promises

A reader works in two phases: it tries whether a block begins, and if one does, reads it to its end.
A scan goes through a source in this way and relies on what is promised there. A try in vain leaves
the cursor where it was. A block that begins has read something. Reading on always ends, never goes
back behind the opener, and if it does not find the end of the block it is at the end of the source.

Both phases are written here as a reader carries them out. Trying may read ahead and return, and
what is kept of an opener is kept apart from the block, so that a block might be asked for its end
with something that belongs to another; `beginBlock_eq_openBlock` says that this does not happen.
With the loops that end blocks (`Cursor.endBlock_eq_closeBlock`), the loop of the scan ends too:
each of its passes reads a character or a block, and the text has an end (`scanPass_ends`).
-/

namespace CommentBlocks

namespace Cursor

/-! ## Reading on -/

/-- `next` is a cursor that has read `read` since `cursor`, in any number of steps. -/
structure Passes (cursor next : Cursor) (read : Text) : Prop where
  /-- It reads the same source. -/
  text : next.text = cursor.text
  /-- The source stands at the same offset. -/
  base : next.base = cursor.base
  /-- It stands behind what was read. -/
  here : next.here = cursor.here.after read
  /-- What was read came next. -/
  rest : ∃ rest, cursor.rest = read ++ rest

namespace Passes

variable {cursor next last : Cursor} {read more front : Text}

theorem of_here_eq (htext : next.text = cursor.text) (hbase : next.base = cursor.base)
    (hhere : next.here = cursor.here) : cursor.Passes next [] :=
  ⟨htext, hbase, hhere.trans (Place.after_nil _).symm, cursor.rest, rfl⟩

theorem rest_eq {rest : Text} (h : cursor.Passes next read) (hrest : cursor.rest = read ++ rest) :
    next.rest = rest := by
  rw [Cursor.rest, h.here]
  exact rest_read hrest

theorem trans (h : cursor.Passes next read) (hlast : next.Passes last more) :
    cursor.Passes last (read ++ more) := by
  obtain ⟨rest, hrest⟩ := h.rest
  obtain ⟨later, hlater⟩ := hlast.rest
  refine ⟨hlast.text.trans h.text, hlast.base.trans h.base, ?_, later, ?_⟩
  · rw [hlast.here, h.here, Place.after_append]
  · rw [hrest, ← h.rest_eq hrest, hlater, List.append_assoc]

theorem hasRead (h : cursor.Passes next read) (hread : cursor.HasRead front) :
    next.HasRead (front ++ read) := by
  obtain ⟨rest, hrest⟩ := h.rest
  have hfollows := hread.read hrest
  constructor
  · rw [h.text, h.rest_eq hrest, ← rest_read hrest]
    exact hfollows.text
  · rw [h.base, Cursor.position, h.here]
    exact hfollows.offset

theorem byteOffset_eq (h : cursor.Passes next read) :
    next.position.byteOffset = cursor.position.byteOffset + read.byteLength := by
  rw [Cursor.position, h.here]
  exact Position.byteOffset_advanceText _ _

theorem byteOffset_lt (h : cursor.Passes next read) (hne : read ≠ []) :
    cursor.position.byteOffset < next.position.byteOffset := by
  obtain ⟨c, others, rfl⟩ := List.exists_cons_of_ne_nil hne
  have hpos := c.utf8Size_pos
  rw [h.byteOffset_eq, Text.byteLength_cons]
  omega

theorem length_rest_lt (h : cursor.Passes next read) (hne : read ≠ []) :
    next.rest.length < cursor.rest.length := by
  obtain ⟨rest, hrest⟩ := h.rest
  have hpos := List.length_pos_iff.mpr hne
  rw [h.rest_eq hrest, hrest, List.length_append]
  omega

end Passes

variable {cursor : Cursor}

theorem passes_take_one {c : Char} {rest : Text} (h : cursor.rest = c :: rest) :
    cursor.Passes (cursor.take 1).2 [c] := by
  rw [take_one h]
  exact ⟨rfl, rfl, rfl, rest, h⟩

theorem passes_openBlock_of_none {after : Cursor} {block : Block}
    (h : cursor.openBlock block = (none, after)) :
    cursor.Passes after [] ∧ (after.undo = cursor.undo ∨ after.undo = none) := by
  unfold openBlock at h
  split at h
  · next returned _ =>
    rw [Prod.mk.injEq] at h
    rw [← h.2]
    split
    · exact ⟨.of_here_eq rfl rfl rfl, Or.inr rfl⟩
    · exact ⟨.of_here_eq rfl rfl rfl, Or.inl rfl⟩
  · simp at h

theorem passes_openBlock_of_some {inside : Cursor} {block : Block} {opened : OpenBlock}
    (h : cursor.openBlock block = (some opened, inside)) :
    opened.block = block ∧ ∃ read, read ≠ [] ∧ cursor.Passes inside read := by
  unfold openBlock at h
  split at h
  · simp at h
  · next other body last hopening =>
    rw [Prod.mk.injEq, Option.some.injEq] at h
    obtain ⟨rfl, rfl⟩ := h
    obtain ⟨hne, hrest⟩ := Block.openingAt_opened hopening
    refine ⟨?_, body ++ last, hne, rfl, rfl, rfl, hrest⟩
    rcases Block.openingAt_eq_opened hopening with ⟨form, rfl, rfl⟩ | ⟨label, rfl, rfl, -⟩
    · rfl
    · rfl

theorem passes_closeBlock (cursor : Cursor) (opened : OpenBlock) :
    (∃ read, cursor.Passes (cursor.closeBlock opened).2 read)
      ∧ ((cursor.closeBlock opened).1.wellTerminated = false →
        (cursor.closeBlock opened).2.rest = [] ∧ (cursor.closeBlock opened).1.lines = []) := by
  rw [closeBlock]
  cases hending : opened.ending? cursor.rest with
  | none =>
    have hrest : cursor.rest = cursor.rest ++ [] := (List.append_nil _).symm
    have hall : cursor.takeRest.2.rest = [] := rest_read hrest
    refine ⟨⟨cursor.rest ++ [], rfl, rfl, ?_, [], ?_⟩, fun _ ↦ ⟨?_, rfl⟩⟩
    · rw [Place.after_append, ← hall]
      rfl
    · rw [List.append_nil, List.append_nil]
    · dsimp only
      rw [takeRest]
      exact rest_read ((List.append_nil _).symm)
  | some ending =>
    exact ⟨⟨ending.read, rfl, rfl, rfl, OpenBlock.ending?_eq_some hending⟩,
      fun hopen ↦ absurd hopen Bool.noConfusion⟩

/-! ## Beginning a block -/

section Beginning

variable {m : Type → Type} [Monad m] [Counting m]

/-- Read the first of some tokens that comes next. -/
def matchFirst (cursor : Cursor) : List Text → m (Bool × Cursor)
  | [] => return (false, cursor)
  | token :: tokens => do
    match ← cursor.matchTokenM token with
    | (true, after) => return (true, after)
    | (false, same) => same.matchFirst tokens

/-- Try a heredoc: read its opener and the rest of the line, and return if there is no label. -/
def beginHeredoc (cursor : Cursor) : m (Option OpenState × Cursor) := do
  match ← cursor.matchTokenM heredocOpener with
  | (false, same) => return (none, same)
  | (true, inside) =>
    let spaces ← inside.reading (·.skipSpaces none)
    let line ← spaces.2.reading takeLine
    match HeredocLabel.ofLine? line.1 with
    | some label => return (some (.heredoc label), line.2)
    | none => return (none, line.2.returnTo cursor.here)

/-- Try a block anchored to lines: read its opener and a line break, and return if they are not
there. -/
def beginAnchored (cursor : Cursor) (opener : Text) : m (Option OpenState × Cursor) := do
  if cursor.atLineStart then
    match ← cursor.matchTokenM opener with
    | (false, same) => return (none, same.returnTo cursor.here)
    | (true, inside) =>
      match ← inside.eatLineBreak with
      | (true, after) => return (some .plain, after)
      | (false, tried) => return (none, tried.returnTo cursor.here)
  else return (none, cursor)

/-- Try a block that begins with one of its openers wherever that stands. -/
def beginPlain (cursor : Cursor) (form : Delimited) : m (Option OpenState × Cursor) := do
  match ← cursor.matchFirst form.openers with
  | (true, inside) => return (some form.state, inside)
  | (false, same) => return (none, same)

/-- Try whether a block begins here, and tell what is to be kept of its opener. -/
def beginBlock (cursor : Cursor) : Block → m (Option OpenState × Cursor)
  | .heredoc => cursor.beginHeredoc
  | .delimited (.anchored opener _) => cursor.beginAnchored opener
  | .delimited form => cursor.beginPlain form

/-- Try blocks in turn. -/
def beginFirst (cursor : Cursor) : List Block → m (Option (Block × OpenState) × Cursor)
  | [] => return (none, cursor)
  | block :: blocks => do
    match ← cursor.beginBlock block with
    | (some state, inside) => return (some (block, state), inside)
    | (none, same) => same.beginFirst blocks

end Beginning

theorem run_matchFirst (cursor : Cursor) (tokens : List Text) :
    Id.run (cursor.matchFirst tokens) =
      match tokens.find? (Text.startsWith · cursor.rest) with
      | some token => (true, cursor.read token)
      | none => (false, cursor) := by
  induction tokens with
  | nil => rfl
  | cons token tokens ih =>
    rw [matchFirst, Id.run_bind, run_matchTokenM, matchToken, List.find?_cons]
    cases Text.startsWith token cursor.rest with
    | true => rfl
    | false => exact ih

theorem run_beginHeredoc (cursor : Cursor) :
    Id.run cursor.beginHeredoc
      = ((cursor.openBlock .heredoc).1.map OpenBlock.state, (cursor.openBlock .heredoc).2) := by
  have hopening : Block.openingAt cursor.here .heredoc = heredocOpening cursor.rest := rfl
  rw [beginHeredoc, openBlock, hopening, heredocOpening, Id.run_bind, run_matchTokenM]
  cases hafter : Text.afterToken? heredocOpener cursor.rest with
  | none =>
    rw [matchToken_of_none hafter]
    rfl
  | some rest =>
    have hread := (Text.afterToken?_eq_some_iff.mp hafter).2
    have hspaces : (cursor.read heredocOpener).rest
        = rest.takeWhile isSpace ++ rest.dropWhile isSpace :=
      (rest_read hread).trans List.takeWhile_append_dropWhile.symm
    rw [matchToken_of_some hafter]
    dsimp only
    rw [Id.run_bind, run_reading_skipSpaces, skipSpaces_none, rest_read hread]
    dsimp only
    rw [Id.run_bind, run_reading_takeLine, takeLine_eq, rest_read hspaces]
    dsimp only
    cases HeredocLabel.ofLine? (Text.splitLine (rest.dropWhile isSpace)).1 with
    | none => rfl
    | some label =>
      dsimp only [read]
      rw [Place.after_append, Place.after_append]
      rfl

theorem run_beginAnchored (cursor : Cursor) (opener closer : Text) :
    Id.run (cursor.beginAnchored opener)
      = ((cursor.openBlock (.delimited (.anchored opener closer))).1.map OpenBlock.state,
        (cursor.openBlock (.delimited (.anchored opener closer))).2) := by
  have hopening : Block.openingAt cursor.here (.delimited (.anchored opener closer))
      = anchoredOpening opener closer cursor.here := rfl
  rw [beginAnchored, openBlock, hopening, anchoredOpening, atLineStart, position]
  by_cases hcolumn : cursor.here.position.character = 0
  · rw [if_neg (not_not.mpr hcolumn), if_pos (beq_iff_eq.mpr hcolumn), Id.run_bind,
      run_matchTokenM]
    cases hafter : Text.afterToken? opener cursor.rest with
    | none =>
      have hbreak : (Text.afterToken? opener cursor.here.rest).bind Text.lineBreak? = none := by
        rw [show Text.afterToken? opener cursor.here.rest = none from hafter]
        rfl
      rw [matchToken_of_none hafter, hbreak]
      rfl
    | some rest =>
      have hread := (Text.afterToken?_eq_some_iff.mp hafter).2
      have hbreak : (Text.afterToken? opener cursor.here.rest).bind Text.lineBreak?
          = Text.lineBreak? rest := by
        rw [show Text.afterToken? opener cursor.here.rest = some rest from hafter]
        rfl
      rw [matchToken_of_some hafter, hbreak]
      dsimp only
      rw [Id.run_bind, run_eatLineBreak, rest_read hread]
      cases Text.lineBreak? rest with
      | none => rfl
      | some lineBreak =>
        dsimp only [read]
        rw [Place.after_append]
        rfl
  · rw [if_pos hcolumn, if_neg]
    · rfl
    · exact fun heq ↦ hcolumn (beq_iff_eq.mp heq)

theorem run_beginPlain {form : Delimited}
    (hopening : Block.openingAt cursor.here (.delimited form) = plainOpening form cursor.rest) :
    Id.run (cursor.beginPlain form)
      = ((cursor.openBlock (.delimited form)).1.map OpenBlock.state,
        (cursor.openBlock (.delimited form)).2) := by
  rw [beginPlain, openBlock, hopening, Id.run_bind, run_matchFirst, plainOpening]
  cases form.openers.find? (Text.startsWith · cursor.rest) with
  | none => rfl
  | some opener =>
    dsimp only [read]
    rw [List.nil_append, Place.after_nil]
    rfl

/-- **Trying a block step by step opens it or leaves it**, and what is kept of the opener is what
belongs to the block. -/
theorem beginBlock_eq_openBlock (cursor : Cursor) (block : Block) :
    Id.run (cursor.beginBlock block)
      = ((cursor.openBlock block).1.map OpenBlock.state, (cursor.openBlock block).2) := by
  unfold beginBlock
  split
  · exact cursor.run_beginHeredoc
  · exact cursor.run_beginAnchored _ _
  · next form hform =>
    apply run_beginPlain
    cases form with
    | anchored opener closer => exact absurd rfl (hform opener closer)
    | _ => rfl

theorem beginFirst_eq_openFirst (cursor : Cursor) (blocks : List Block) :
    Id.run (cursor.beginFirst blocks)
      = ((cursor.openFirst blocks).1.map fun opened ↦ (opened.block, opened.state),
        (cursor.openFirst blocks).2) := by
  induction blocks generalizing cursor with
  | nil => rfl
  | cons block blocks ih =>
    rw [beginFirst, Id.run_bind, beginBlock_eq_openBlock, openFirst]
    rcases hopen : cursor.openBlock block with ⟨_ | opened, after⟩
    · exact ih after
    · rw [← (passes_openBlock_of_some hopen).1]
      rfl

theorem passes_openFirst_of_none {same : Cursor} {blocks : List Block}
    (h : cursor.openFirst blocks = (none, same)) : cursor.Passes same [] := by
  induction blocks generalizing cursor with
  | nil =>
    rw [openFirst, Prod.mk.injEq] at h
    rw [← h.2]
    exact .of_here_eq rfl rfl rfl
  | cons block blocks ih =>
    rw [openFirst] at h
    rcases hopen : cursor.openBlock block with ⟨_ | opened, after⟩
    · rw [hopen] at h
      exact (passes_openBlock_of_none hopen).1.trans (ih h)
    · rw [hopen] at h
      simp at h

theorem passes_openFirst_of_some {inside : Cursor} {opened : OpenBlock} {blocks : List Block}
    (h : cursor.openFirst blocks = (some opened, inside)) :
    ∃ read, read ≠ [] ∧ cursor.Passes inside read := by
  induction blocks generalizing cursor with
  | nil => simp [openFirst] at h
  | cons block blocks ih =>
    rw [openFirst] at h
    rcases hopen : cursor.openBlock block with ⟨_ | other, after⟩
    · rw [hopen] at h
      obtain ⟨read, hne, hpasses⟩ := ih h
      exact ⟨[] ++ read, hne, (passes_openBlock_of_none hopen).1.trans hpasses⟩
    · rw [hopen] at h
      obtain ⟨-, rfl⟩ := Prod.mk.inj h
      exact (passes_openBlock_of_some hopen).2

end Cursor

/-! ## The loop of a scan -/

/-- A pass of the loop that goes through a source: a block that begins here and its end, or one
character. -/
def scanPass {m : Type → Type} [Monad m] [Counting m] (blocks : List Block)
    (state : Cursor × List Comment) : m (Pass (Cursor × List Comment) Survey) := do
  if state.1.atEnd then return .done ⟨state.2, none⟩
  else
    match ← state.1.beginFirst blocks with
    | (none, same) => return .again ((← same.reading (·.take 1)).2, state.2)
    | (some (block, kept), inside) =>
      match ← inside.endBlock (inside.rest.length + 1) block kept with
      | none => return .failed
      | some (stop, after) =>
        if stop.wellTerminated then
          return .again (after,
            if block.kind.isComment then state.2 ++ [⟨state.1.position, stop.lines⟩] else state.2)
        else return .done ⟨state.2, some ⟨state.1.position, block.kind⟩⟩

section Scan

variable {blocks : List Block} {cursor : Cursor} {found : List Comment} {front : Text}

theorem scanPass_of_none {same : Cursor} (hne : cursor.rest ≠ [])
    (h : cursor.openFirst blocks = (none, same)) :
    Id.run (scanPass blocks (cursor, found)) = .again ((same.take 1).2, found) := by
  rw [scanPass, if_neg (Cursor.not_atEnd hne), Id.run_bind, Cursor.beginFirst_eq_openFirst, h]
  dsimp only [Option.map_none]
  rw [Id.run_bind, Cursor.run_reading_take, Id.run_pure]

theorem scanPass_of_some {inside : Cursor} {opened : OpenBlock} (hread : cursor.HasRead front)
    (hne : cursor.rest ≠ []) (h : cursor.openFirst blocks = (some opened, inside))
    (found : List Comment) :
    Id.run (scanPass blocks (cursor, found)) =
      if (inside.closeBlock opened).1.wellTerminated then
        .again ((inside.closeBlock opened).2,
          if opened.kind.isComment then
            found ++ [⟨cursor.position, (inside.closeBlock opened).1.lines⟩]
          else found)
      else .done ⟨found, some ⟨cursor.position, opened.kind⟩⟩ := by
  obtain ⟨read, -, hpasses⟩ := Cursor.passes_openFirst_of_some h
  rw [scanPass, if_neg (Cursor.not_atEnd hne), Id.run_bind, Cursor.beginFirst_eq_openFirst, h]
  dsimp only [Option.map_some]
  rw [Id.run_bind, Cursor.endBlock_eq_closeBlock (hpasses.hasRead hread)]
  dsimp only
  split <;> rfl

/-- **A pass of the scan that goes on has read something.** -/
theorem passes_of_scanPass {next : Cursor × List Comment} (hread : cursor.HasRead front)
    (h : Id.run (scanPass blocks (cursor, found)) = .again next) :
    ∃ read, read ≠ [] ∧ cursor.Passes next.1 read := by
  by_cases hend : cursor.rest = []
  · rw [scanPass, if_pos (Cursor.atEnd_of_nil hend), Id.run_pure] at h
    simp at h
  rcases hopen : cursor.openFirst blocks with ⟨_ | opened, after⟩
  · obtain ⟨c, rest, hrest⟩ := List.exists_cons_of_ne_nil hend
    have hpasses := Cursor.passes_openFirst_of_none hopen
    rw [scanPass_of_none hend hopen, Pass.again.injEq] at h
    rw [← h]
    exact ⟨[] ++ [c], List.cons_ne_nil c [],
      hpasses.trans (Cursor.passes_take_one (hpasses.rest_eq hrest))⟩
  · obtain ⟨opener, hne, hinside⟩ := Cursor.passes_openFirst_of_some hopen
    obtain ⟨⟨body, hclose⟩, -⟩ := after.passes_closeBlock opened
    rw [scanPass_of_some hread hend hopen found] at h
    split at h
    · rw [Pass.again.injEq] at h
      rw [← h]
      exact ⟨opener ++ body, List.append_ne_nil_of_left_ne_nil hne body, hinside.trans hclose⟩
    · simp at h

/-- **The loop of the scan ends, and comes to the survey of the text.** -/
theorem scanPass_ends {cursor : Cursor} {front : Text} (hread : cursor.HasRead front)
    (found : List Comment) :
    EndsWithin (scanPass blocks) cursor.rest.length (cursor, found)
      ((survey blocks cursor).following found) := by
  by_cases hend : cursor.rest = []
  · have hsurvey : survey blocks cursor = ⟨[], none⟩ := by
      rw [survey, dif_pos (show cursor.here.rest = [] from hend)]
    apply EndsWithin.done
    rw [scanPass, if_pos (Cursor.atEnd_of_nil hend), hsurvey, Survey.following, List.append_nil,
      Id.run_pure]
  -- a pass that goes on leaves less to read, so that from there the loop ends by induction
  have hgoes : ∀ next : Cursor × List Comment,
      Id.run (scanPass blocks (cursor, found)) = .again next →
      EndsWithin (scanPass blocks) cursor.rest.length (cursor, found)
        ((survey blocks next.1).following next.2) := by
    intro next hpass
    obtain ⟨read, hne, hpasses⟩ := passes_of_scanPass hread hpass
    have hless := hpasses.length_rest_lt hne
    exact .again hpass hless (scanPass_ends (hpasses.hasRead hread) next.2)
  rcases hopen : cursor.openFirst blocks with ⟨_ | opened, after⟩
  · rw [survey_of_openFirst_eq_none hend hopen]
    exact hgoes _ (scanPass_of_none hend hopen)
  · have hpass := scanPass_of_some hread hend hopen found
    rw [survey_of_openFirst_eq_some hend hopen]
    cases hending : opened.ending? after.rest with
    | none =>
      have hstop : (after.closeBlock opened).1 = ⟨[], false⟩ := by
        rw [Cursor.closeBlock, hending]
      rw [hstop, if_neg Bool.false_ne_true] at hpass
      apply EndsWithin.done
      rw [hpass, Survey.following, List.append_nil]
    | some ending =>
      have hstop : (after.closeBlock opened).1 = ⟨ending.lines, true⟩ := by
        rw [Cursor.closeBlock, hending]
      rw [hstop, if_pos rfl] at hpass
      have hends := hgoes _ hpass
      dsimp only
      rw [Survey.following_following]
      split at hends
      · next hcomment =>
        rw [if_pos hcomment]
        exact hends
      · next hcomment =>
        rw [if_neg hcomment, Option.toList_none, List.append_nil]
        exact hends
termination_by cursor.rest.length

end Scan

/-! ## The contract -/

namespace Source

variable {source : Source}

theorem hasRead_cursorAt (source : Source) (index : Index) :
    (source.cursorAt index).HasRead (source.text.take index.here) :=
  ⟨(List.take_append_drop _ _).symm, source.byteOffset_positionAt index.here⟩

/-- **What reading a block promises.** Let `cursor` be any cursor of any run over a source. A block,
whatever its tokens, either does not begin there, and then place and source are as before and the
step to undo is the same or forgotten; or it begins, and has read at least one byte. Trying the
block step by step comes to the same, and a heredoc that begins has its label. The loop that reads
the block to its end takes one pass at most for each character that is left, and one more. It does
not end before it began, and if the block does not close it ends where the source does, with no
lines. So every pass of a scan reads at least one byte, and the scan ends, again in one pass for
each character and one more. -/
theorem block_contract {steps : List Cursor.Step} {cursor : Cursor}
    (hcursor : cursor ∈ (source.run steps).cursors) :
    (∀ block : Block,
      Id.run (cursor.beginBlock block)
          = ((cursor.openBlock block).1.map OpenBlock.state, (cursor.openBlock block).2)
        ∧ (∀ after, cursor.openBlock block = (none, after) →
          after.here = cursor.here ∧ after.text = cursor.text ∧ after.base = cursor.base
            ∧ (after.undo = cursor.undo ∨ after.undo = none))
        ∧ ∀ opened inside, cursor.openBlock block = (some opened, inside) →
          cursor.position.byteOffset < inside.position.byteOffset
            ∧ (block = .heredoc → ∃ label, opened.state = .heredoc label)
            ∧ ∃ stop after, inside.closeBlock opened = (stop, after)
              ∧ Id.run (inside.endBlock (inside.rest.length + 1) block opened.state)
                = some (stop, after)
              ∧ inside.position.byteOffset ≤ after.position.byteOffset
              ∧ (stop.wellTerminated = false → after.rest = [] ∧ stop.lines = []))
      ∧ ∀ profile : Profile,
        (∀ found next, Id.run (scanPass profile.blocks (cursor, found)) = .again next →
          cursor.position.byteOffset < next.1.position.byteOffset)
        ∧ Id.run (runLoop (scanPass profile.blocks) (cursor.rest.length + 1) (cursor, []))
          = some (survey profile.blocks cursor) := by
  obtain ⟨index, -, rfl⟩ := exists_index_of_mem_run hcursor
  have hread := source.hasRead_cursorAt index
  constructor
  · intro block
    refine ⟨Cursor.beginBlock_eq_openBlock _ block, ?_, ?_⟩
    · intro after hrefused
      obtain ⟨hpasses, hundo⟩ := Cursor.passes_openBlock_of_none hrefused
      exact ⟨hpasses.here.trans (Place.after_nil _), hpasses.text, hpasses.base, hundo⟩
    · intro opened inside hopened
      obtain ⟨rfl, read, hne, hpasses⟩ := Cursor.passes_openBlock_of_some hopened
      obtain ⟨⟨body, hclose⟩, hopen⟩ := inside.passes_closeBlock opened
      have hend := Cursor.endBlock_eq_closeBlock (hpasses.hasRead hread) opened
      refine ⟨hpasses.byteOffset_lt hne, ?_, (inside.closeBlock opened).1,
        (inside.closeBlock opened).2, rfl, hend, ?_, hopen⟩
      · intro hheredoc
        cases opened with
        | delimited form => exact absurd hheredoc Block.noConfusion
        | heredoc label => exact ⟨label, rfl⟩
      · rw [hclose.byteOffset_eq]
        exact Nat.le_add_right _ _
  · intro profile
    constructor
    · intro found next hpass
      obtain ⟨read, hne, hpasses⟩ := passes_of_scanPass hread hpass
      exact hpasses.byteOffset_lt hne
    · exact scanPass_ends hread [] _ (Nat.lt_succ_self _)

/-- An end token that is also the escape is passed over, and the string runs to the end of the
source. -/
theorem block_contract_escaped_closer :
    let block : Block := .escaped "(" ")" ")"
    let source : Source := ⟨"(a)b".toList, ⟨"a"⟩, .zero⟩
    ∃ opened inside, source.cursor.openBlock block = (some opened, inside)
      ∧ source.cursor.position.byteOffset < inside.position.byteOffset
      ∧ ∃ after, Id.run (inside.endBlock (inside.rest.length + 1) block opened.state)
          = some (⟨[], false⟩, after)
        ∧ after.rest = [] := by
  intro block source
  let opened : OpenBlock := .delimited (.string ['('] [')'] (some [')']))
  let inside : Cursor := source.cursor.read ['(']
  have hcursor : source.cursor ∈ (source.run []).cursors := List.mem_singleton.mpr rfl
  have hopen : source.cursor.openBlock block = (some opened, inside) := by
    decide +kernel +zetaReduce
  have hunclosed : (inside.closeBlock opened).1 = ⟨[], false⟩ := by
    decide +kernel +zetaReduce
  obtain ⟨hforward, -, stop, after, hclose, hend, -, hstop⟩ :=
    ((block_contract hcursor).1 block).2.2 opened inside hopen
  rw [hclose] at hunclosed
  obtain rfl : stop = ⟨[], false⟩ := hunclosed
  exact ⟨opened, inside, hopen, hforward, after, hend, (hstop rfl).1⟩

end Source

end CommentBlocks
