import CommentBlocks.Proofs.CursorLoops
import CommentBlocks.Proofs.TruncatedBlocks

/-!
# Reading blocks step by step

Where a block ends is said by rules on text, one for each kind. A reader finds out with a cursor and
a loop: it tries a token, takes a character or a line, and perhaps goes back to where it was and
tries something else. Here are these loops, made of the operations of a cursor and nothing else, and
for each of them a proof that it ends and comes to what the rule says.

## Why they end

That a loop ends is not plain from its shape, since a pass may give back what it read. But no pass
goes on from where it began. A token that is matched is not empty, whatever the profile says; and a
pass that has gone back takes a character or a line from there, of which there is one because the
end of the text was tested first. So a loop takes at most one pass for each character that is left,
and one more to see that none is.

## Slices

The loop for comments cuts its lines out of the source by their positions. A slice that the source
does not have would end the loop without a result; `Cursor.IsInLine` says what the loop knows about
its positions, and from that every slice is there.
-/

namespace CommentBlocks

/-! ## Strings -/

section Strings

variable {m : Type → Type} [Monad m] [Counting m] {closer quote mark : Text} {escape : Option Text}

/-- A pass of the loop for strings: an escape and the character behind it, or the end token, or one
character. -/
def stringPass (closer : Text) (escape : Option Text) (cursor : Cursor) :
    m (Pass Cursor (BlockEnd × Cursor)) := do
  if cursor.atEnd then return .done (← cursor.giveUp)
  else
    match ← escape.elim (pure (false, cursor)) cursor.matchTokenM with
    | (true, inside) => return .again (← inside.reading (·.take 1)).2
    | (false, same) =>
      match ← same.matchTokenM closer with
      | (true, after) => return .done (⟨[], true⟩, after)
      | (false, same) => return .again (← same.reading (·.take 1)).2

theorem stringPass_of_escape {cursor : Cursor} {c : Char} {text rest : Text} (closer : Text)
    (hrest : cursor.rest = c :: text) (h : afterEscape? escape (c :: text) = some rest) :
    ∃ token, escape = some token ∧ cursor.rest = token ++ rest
      ∧ Id.run (stringPass closer escape cursor) = .again ((cursor.read token).take 1).2 := by
  obtain ⟨token, rfl, htoken⟩ := Option.bind_eq_some_iff.mp h
  rw [← hrest] at htoken
  refine ⟨token, rfl, (Text.afterToken?_eq_some_iff.mp htoken).2, ?_⟩
  rw [stringPass, if_neg (Cursor.not_atEnd_of_cons hrest), Option.elim_some, Id.run_bind,
    Cursor.run_matchTokenM_of_some htoken]
  dsimp only
  rw [Id.run_bind, Cursor.run_reading_take, Id.run_pure]

theorem stringPass_of_no_escape {cursor : Cursor} {c : Char} {text : Text}
    (hrest : cursor.rest = c :: text) (h : afterEscape? escape (c :: text) = none) :
    Id.run (stringPass closer escape cursor) =
      match cursor.matchToken closer with
      | (true, after) => .done (⟨[], true⟩, after)
      | (false, same) => .again (same.take 1).2 := by
  have hescape : Id.run (escape.elim (pure (false, cursor)) cursor.matchTokenM)
      = (false, cursor) := by
    cases escape with
    | none => rfl
    | some token =>
      rw [← hrest] at h
      rw [Option.elim_some, Cursor.run_matchTokenM_of_none h]
  rw [stringPass, if_neg (Cursor.not_atEnd_of_cons hrest), Id.run_bind, hescape]
  dsimp only
  rw [Id.run_bind, Cursor.run_matchTokenM]
  split
  · rfl
  · rw [Id.run_bind, Cursor.run_reading_take, Id.run_pure]

theorem stringPass_ends {cursor : Cursor} {text : Text} (hrest : cursor.rest = text) :
    EndsWithin (stringPass closer escape) text.length cursor
      (cursor.finish ((stringBody? closer escape text).map (Ending.closedBy closer))) := by
  fun_induction stringBody? closer escape text generalizing cursor with
  | case1 => exact .gaveUp hrest (if_pos (Cursor.atEnd_of_nil hrest))
  | case2 c rest hend =>
    -- nothing is left behind the escape, and the next pass sees it
    obtain ⟨token, -, htoken, hpass⟩ := stringPass_of_escape closer hrest hend
    have hinside : (cursor.read token).rest = [] := Cursor.rest_read htoken
    have hnext : ((cursor.read token).take 1).2 = (cursor.read token).read [] := by
      rw [Cursor.take, hinside]
      rfl
    have hnone : ((cursor.read token).read []).rest = [] := Cursor.rest_read hinside
    have hgaveUp : EndsWithin (stringPass closer escape) 0 _ _ :=
      .gaveUp hnone (if_pos (Cursor.atEnd_of_nil hnone))
    rw [Cursor.finish_read hinside, Cursor.finish_read htoken] at hgaveUp
    rw [hnext] at hpass
    exact .again hpass (Nat.succ_pos _) hgaveUp
  | case3 c rest escaped more hafter hless ih =>
    obtain ⟨token, rfl, htoken, hpass⟩ := stringPass_of_escape closer hrest hafter
    have hinside : (cursor.read token).rest = [escaped] ++ more := Cursor.rest_read htoken
    have hnext := ih (Cursor.rest_read hinside)
    rw [Cursor.take_one hinside] at hpass
    rw [Cursor.finish_read hinside, Cursor.finish_read htoken, Option.map_map, Option.map_map]
      at hnext
    rw [Option.map_map]
    exact .again hpass (Nat.lt_of_succ_lt hless) hnext
  | case4 c rest hnone hclose =>
    rw [← hrest] at hclose
    obtain ⟨after, hafter⟩ := Option.isSome_iff_exists.mp hclose
    apply EndsWithin.done
    rw [stringPass_of_no_escape hrest hnone, Cursor.matchToken_of_some hafter]
    exact congrArg Pass.done (cursor.finish_last [] closer).symm
  | case5 c rest hnone hclose ih =>
    have hread : cursor.rest = [c] ++ rest := hrest
    have hnext := ih (Cursor.rest_read hread)
    rw [Cursor.finish_read hread, Option.map_map] at hnext
    rw [← hrest, Text.startsWith, Bool.not_eq_true, Option.isSome_eq_false_iff,
      Option.isNone_iff_eq_none] at hclose
    rw [Option.map_map]
    refine .again ?_ (Nat.lt_succ_self _) hnext
    rw [stringPass_of_no_escape hrest hnone, Cursor.matchToken_of_none hclose]
    dsimp only
    rw [Cursor.take_one hrest]

/-- A pass of the loop for strings that write their quote twice. -/
def doubledPass (quote : Text) (cursor : Cursor) : m (Pass Cursor (BlockEnd × Cursor)) := do
  if cursor.atEnd then return .done (← cursor.giveUp)
  else
    match ← cursor.matchTokenM quote with
    | (true, inside) =>
      match ← inside.matchTokenM quote with
      | (true, after) => return .again after
      | (false, same) => return .done (⟨[], true⟩, same)
    | (false, same) => return .again (← same.reading (·.take 1)).2

theorem doubledPass_ends {cursor : Cursor} {text : Text} (hrest : cursor.rest = text) :
    EndsWithin (doubledPass quote) text.length cursor
      (cursor.finish ((doubledBody? quote text).map (Ending.closedBy quote))) := by
  fun_induction doubledBody? quote text generalizing cursor with
  | case1 => exact .gaveUp hrest (if_pos (Cursor.atEnd_of_nil hrest))
  | case2 c rest hnone ih =>
    have hread : cursor.rest = [c] ++ rest := hrest
    have hnext := ih (Cursor.rest_read hread)
    rw [Cursor.finish_read hread, Option.map_map] at hnext
    rw [← hrest] at hnone
    rw [Option.map_map]
    refine .again ?_ (Nat.lt_succ_self _) hnext
    rw [doubledPass, if_neg (Cursor.not_atEnd_of_cons hrest), Id.run_bind,
      Cursor.run_matchTokenM_of_none hnone]
    dsimp only
    rw [Id.run_bind, Cursor.run_reading_take_one hrest, Id.run_pure]
  | case3 c rest inside hfirst hsecond =>
    rw [← hrest] at hfirst
    rw [← Cursor.rest_read (Text.afterToken?_eq_some_iff.mp hfirst).2] at hsecond
    apply EndsWithin.done
    rw [doubledPass, if_neg (Cursor.not_atEnd_of_cons hrest), Id.run_bind,
      Cursor.run_matchTokenM_of_some hfirst]
    dsimp only
    rw [Id.run_bind, Cursor.run_matchTokenM_of_none hsecond]
    exact congrArg Pass.done (cursor.finish_last [] quote).symm
  | case4 c rest inside hfirst more hsecond hless ih =>
    rw [← hrest] at hfirst
    have hread := (Text.afterToken?_eq_some_iff.mp hfirst).2
    have hinside := Cursor.rest_read hread
    rw [← hinside] at hsecond
    have hagain := (Text.afterToken?_eq_some_iff.mp hsecond).2
    have hnext := ih (Cursor.rest_read hagain)
    rw [Cursor.finish_read hagain, Cursor.finish_read hread, Option.map_map, Option.map_map]
      at hnext
    rw [Option.map_map]
    refine .again ?_ hless hnext
    rw [doubledPass, if_neg (Cursor.not_atEnd_of_cons hrest), Id.run_bind,
      Cursor.run_matchTokenM_of_some hfirst]
    dsimp only
    rw [Id.run_bind, Cursor.run_matchTokenM_of_some hsecond, Id.run_pure]

/-- A pass of the loop for fenced strings. A mark that does not end its line is given back, and then
one character of it is taken. -/
def fencePass (mark : Text) (cursor : Cursor) : m (Pass Cursor (BlockEnd × Cursor)) := do
  if cursor.atEnd then return .done (← cursor.giveUp)
  else
    match ← cursor.matchTokenM mark with
    | (false, same) => return .again (← same.reading (·.take 1)).2
    | (true, after) =>
      if (Text.splitLine after.rest).1.isBlank then
        return .done (⟨[], true⟩, (← after.reading Cursor.takeLine).2)
      else return .again (← (after.moveTo cursor.position).reading (·.take 1)).2

theorem fencePass_of_mark {cursor : Cursor} {c : Char} {text after : Text}
    (hrest : cursor.rest = c :: text) (hmark : Text.afterToken? mark cursor.rest = some after) :
    Id.run (fencePass mark cursor) =
      if (Text.splitLine after).1.isBlank then .done (⟨[], true⟩, (cursor.read mark).takeLine.2)
      else .again (((cursor.read mark).moveTo cursor.position).take 1).2 := by
  rw [fencePass, if_neg (Cursor.not_atEnd_of_cons hrest), Id.run_bind,
    Cursor.run_matchTokenM_of_some hmark]
  dsimp only
  rw [Cursor.rest_read (Text.afterToken?_eq_some_iff.mp hmark).2]
  split
  · rw [Id.run_bind, Cursor.run_reading_takeLine, Id.run_pure]
  · rw [Id.run_bind, Cursor.run_reading_take, Id.run_pure]

theorem fencePass_ends {cursor : Cursor} {front text : Text} (hread : cursor.HasRead front)
    (hrest : cursor.rest = text) :
    EndsWithin (fencePass mark) text.length cursor (cursor.finish (fenceEnding? mark text)) := by
  induction text generalizing cursor front with
  | nil => exact .gaveUp hrest (if_pos (Cursor.atEnd_of_nil hrest))
  | cons c rest ih =>
    have hstep : cursor.rest = [c] ++ rest := hrest
    have hnext := ih (hread.read hstep) (Cursor.rest_read hstep)
    rw [Cursor.finish_read hstep] at hnext
    cases hmark : Text.afterToken? mark (c :: rest) with
    | none =>
      rw [fenceEnding?_of_no_mark (by simp [hmark])]
      refine .again ?_ (Nat.lt_succ_self _) hnext
      rw [← hrest] at hmark
      rw [fencePass, if_neg (Cursor.not_atEnd_of_cons hrest), Id.run_bind,
        Cursor.run_matchTokenM_of_none hmark]
      dsimp only
      rw [Id.run_bind, Cursor.run_reading_take_one hrest, Id.run_pure]
    | some after =>
      have hmatch : Text.afterToken? mark cursor.rest = some after := by rw [hrest, hmark]
      have hsplit := (Text.afterToken?_eq_some_iff.mp hmatch).2
      by_cases hblank : (Text.splitLine after).1.isBlank = true
      · rw [fenceEnding?_of_mark hmark hblank, Cursor.finish_body hsplit]
        apply EndsWithin.done
        rw [fencePass_of_mark hrest hmatch, if_pos hblank, Cursor.takeLine_eq,
          Cursor.rest_read hsplit]
      · rw [fenceEnding?_of_no_mark (by simp [hmark, hblank])]
        refine .again ?_ (Nat.lt_succ_self _) hnext
        have hreturn : ((cursor.read mark).returnTo cursor.here).rest = c :: rest := hrest
        rw [fencePass_of_mark hrest hmatch, if_neg hblank, hread.moveTo_position,
          Cursor.take_one hreturn]
        rfl

end Strings

/-! ## Line comments -/

section LineComments

variable {m : Type → Type} [Monad m] [Counting m] {opener : Text} {cursor : Cursor}
  {lines : List Text}

/-- A pass of the loop for line comments: one line, and the opener of the next if it has one. To see
that, the indentation is read, and given back if no opener follows. -/
def linePass (opener : Text) (state : Cursor × List Text) :
    m (Pass (Cursor × List Text) (BlockEnd × Cursor)) := do
  let line ← state.1.reading Cursor.takeLine
  let lines := state.2 ++ [Text.dropMark opener line.1]
  if line.2.atEnd then return .done (⟨lines, true⟩, line.2)
  else
    let spaces ← line.2.reading (·.skipSpaces none)
    match ← spaces.2.matchTokenM opener with
    | (true, inside) => return .again (inside, lines)
    | (false, same) => return .done (⟨lines, true⟩, same.returnTo line.2.here)

/-- An ending with more lines in front, and a change made to its own. -/
def Ending.addLines (lines : List Text) (edit : Text → Text) (ending : Ending) : Ending :=
  { ending with lines := lines ++ ending.lines.map edit }

theorem linePass_eq {line next : Text} (hsplit : Text.splitLine cursor.rest = (line, next)) :
    Id.run (linePass opener (cursor, lines)) =
      if next.isEmpty then .done (⟨lines ++ [Text.dropMark opener line], true⟩, cursor.read line)
      else
        match ((cursor.read line).read (next.takeWhile isSpace)).matchToken opener with
        | (true, inside) => .again (inside, lines ++ [Text.dropMark opener line])
        | (false, same) =>
          .done (⟨lines ++ [Text.dropMark opener line], true⟩,
            same.returnTo (cursor.read line).here) := by
  have htake : cursor.takeLine = (line, cursor.read line) := by rw [Cursor.takeLine_eq, hsplit]
  have hnext : (cursor.read line).rest = next := by
    apply Cursor.rest_read
    rw [← Text.splitLine_append cursor.rest, hsplit]
  rw [linePass, Id.run_bind, Cursor.run_reading_takeLine, htake]
  dsimp only
  rw [Cursor.atEnd, hnext]
  split
  · rfl
  · rw [Id.run_bind, Cursor.run_reading_skipSpaces, Cursor.skipSpaces_none, hnext, Id.run_bind,
      Cursor.run_matchTokenM]
    dsimp only
    split <;> rfl

theorem linePass_ends {text : Text} (hrest : cursor.rest = text) :
    EndsWithin (linePass opener) text.length (cursor, lines)
      (cursor.finish (some ((chainEnding opener text).addLines lines (Text.dropMark opener)))) := by
  fun_induction chainEnding opener text generalizing cursor lines with
  | case1 text line =>
    rename_i next hend
    apply EndsWithin.done
    rw [linePass_eq (by rw [hrest]), if_pos hend]
    exact congrArg Pass.done (cursor.finish_last _ _).symm
  | case2 text line next =>
    rename_i hend hnone
    have hread : cursor.rest = line ++ next := by rw [hrest, Text.splitLine_append]
    have hspaces : (cursor.read line).rest = next.takeWhile isSpace ++ next.dropWhile isSpace :=
      (Cursor.rest_read hread).trans List.takeWhile_append_dropWhile.symm
    rw [← Cursor.rest_read hspaces] at hnone
    apply EndsWithin.done
    rw [linePass_eq (by rw [hrest]), if_neg hend, Cursor.matchToken_of_none hnone]
    exact congrArg Pass.done (cursor.finish_returned _ _).symm
  | case3 text line next hend more hmore hless =>
    rename_i others ih
    have hread : cursor.rest = line ++ next := by rw [hrest, Text.splitLine_append]
    have hspaces : (cursor.read line).rest = next.takeWhile isSpace ++ next.dropWhile isSpace :=
      (Cursor.rest_read hread).trans List.takeWhile_append_dropWhile.symm
    rw [← Cursor.rest_read hspaces] at hmore
    have hopener := (Text.afterToken?_eq_some_iff.mp hmore).2
    have hnext := @ih _ (lines ++ [Text.dropMark opener line]) (Cursor.rest_read hopener)
    rw [Cursor.finish_read hopener, Cursor.finish_read hspaces, Cursor.finish_read hread] at hnext
    have hpass : Id.run (linePass opener (cursor, lines))
        = .again (((cursor.read line).read (next.takeWhile isSpace)).read opener,
          lines ++ [Text.dropMark opener line]) := by
      rw [linePass_eq (by rw [hrest]), if_neg hend, Cursor.matchToken_of_some hmore]
    refine .again hpass hless ?_
    simpa [Ending.addLines, Ending.behind] using hnext

end LineComments

/-! ## Comments with an end token -/

/-- Where the loop for comments has come to. -/
structure CommentState where
  /-- The cursor. -/
  cursor : Cursor
  /-- The lines that are complete. -/
  lines : List Text
  /-- Where the current line begins. -/
  lineStart : Position
  /-- How many comments are open, this one included. -/
  depth : Nat
deriving DecidableEq

section Comments

variable {m : Type → Type} [Monad m] [Counting m] {inner closer : Text} {margin : Option Text}

/-- A pass of the loop for comments: an end token, an inner opener or one character. Lines are cut
out of the source when they are complete, or when the comment closes. A comment that does not nest
has an empty inner opener, which is never found. -/
def commentPass (inner closer : Text) (margin : Option Text) (state : CommentState) :
    m (Pass CommentState (BlockEnd × Cursor)) := do
  if state.cursor.atEnd then return .done (← state.cursor.giveUp)
  else
    match ← state.cursor.matchTokenM closer with
    | (true, after) =>
      let depth ← Counting.pred state.depth
      if depth = 0 then
        match after.slice? state.lineStart state.cursor.position with
        | some [] => return .done (⟨state.lines, true⟩, after)
        | some line => return .done (⟨state.lines ++ [Text.dropMargin margin line], true⟩, after)
        | none => return .failed
      else return .again { state with cursor := after, depth := depth }
    | (false, same) =>
      match ← same.matchTokenM inner with
      | (true, inside) =>
        let depth ← Counting.count (state.depth + 1)
        return .again { state with cursor := inside, depth := depth }
      | (false, same) =>
        let next ← same.reading (·.take 1)
        if next.1 = ['\n'] then
          match next.2.sliceFrom? state.lineStart with
          | some line =>
            return .again ⟨next.2, state.lines ++ [Text.dropMargin margin line],
              next.2.position, state.depth⟩
          | none => return .failed
        else return .again { state with cursor := next.2 }

/-- The lines of a comment that is cut into pieces. An empty last piece is no line. -/
def pieceLines (margin : Option Text) (pieces : List Text) : List Text :=
  (if pieces.getLast? = some [] then pieces.dropLast else pieces).map (Text.dropMargin margin)

theorem prependPiece_prependPiece (s t : Text) (pieces : List Text) :
    prependPiece s (prependPiece t pieces) = prependPiece (s ++ t) pieces := by
  cases pieces with
  | nil => rfl
  | cons piece pieces => exact congrArg (· :: pieces) (List.append_assoc _ _ _).symm

theorem pieceLines_prependPiece_nil (margin : Option Text) (pieces : List Text) :
    pieceLines margin (prependPiece [] pieces) = pieceLines margin pieces := by
  cases pieces <;> rfl

theorem pieceLines_cons {piece : Text} (hpiece : piece ≠ []) (margin : Option Text)
    (pieces : List Text) :
    pieceLines margin (piece :: pieces)
      = Text.dropMargin margin piece :: pieceLines margin pieces := by
  cases pieces with
  | nil => simp [pieceLines, hpiece]
  | cons other pieces =>
    rw [pieceLines, pieceLines, List.getLast?_cons_cons, List.dropLast_cons_cons]
    split <;> rfl

/-- The text since `lineStart` is `line`. -/
def Cursor.IsInLine (cursor : Cursor) (lineStart : Position) (line : Text) : Prop :=
  ∃ front, cursor.HasRead (front ++ line)
    ∧ lineStart.byteOffset = cursor.base + Text.byteLength front

namespace Cursor.IsInLine

variable {cursor : Cursor} {lineStart : Position} {line text rest : Text}

theorem read (h : cursor.IsInLine lineStart line) (hrest : cursor.rest = text ++ rest) :
    (cursor.read text).IsInLine lineStart (line ++ text) := by
  obtain ⟨front, hread, hoffset⟩ := h
  refine ⟨front, ?_, hoffset⟩
  rw [← List.append_assoc]
  exact hread.read hrest

theorem start {front : Text} (h : cursor.HasRead front) :
    cursor.IsInLine cursor.position [] := by
  refine ⟨front, ?_, h.offset⟩
  rw [List.append_nil]
  exact h

theorem newLine (h : cursor.IsInLine lineStart line) : cursor.IsInLine cursor.position [] := by
  obtain ⟨front, hread, -⟩ := h
  exact .start hread

theorem slice?_eq (h : cursor.IsInLine lineStart line) :
    cursor.slice? lineStart cursor.position = some line := by
  obtain ⟨front, hread, hstart⟩ := h
  have hoffset := hread.offset
  rw [Text.byteLength_append] at hoffset
  have hfront : Text.splitAtByte? (lineStart.byteOffset - cursor.base) cursor.text
      = some (front, line ++ cursor.rest) := by
    rw [Text.splitAtByte?_eq_some_iff]
    exact ⟨by rw [hread.text, List.append_assoc], by omega⟩
  have hline : Text.splitAtByte? (cursor.position.byteOffset - lineStart.byteOffset)
      (line ++ cursor.rest) = some (line, cursor.rest) := by
    rw [Text.splitAtByte?_eq_some_iff]
    exact ⟨rfl, by omega⟩
  rw [Cursor.slice?, if_pos ⟨by omega, by omega⟩, hfront, Option.bind_some]
  dsimp only
  rw [hline, Option.map_some]

end Cursor.IsInLine

/-- What the loop for comments comes to, when `line` stands before the pieces that are left. -/
def commentEnd (closer : Text) (margin : Option Text) (lines : List Text) (line : Text)
    (pieces : List Text) : Ending :=
  ⟨lines ++ pieceLines margin (prependPiece line pieces), pieces.flatten, some closer⟩

theorem commentEnd_prependPiece (lines : List Text) (line text : Text) (pieces : List Text) :
    commentEnd closer margin lines line (prependPiece text pieces)
      = (commentEnd closer margin lines (line ++ text) pieces).behind text := by
  rw [commentEnd, prependPiece_prependPiece, flatten_prependPiece]
  rfl

theorem commentEnd_feed (lines : List Text) (line : Text) (pieces : List Text) :
    commentEnd closer margin lines line (['\n'] :: pieces)
      = (commentEnd closer margin (lines ++ [Text.dropMargin margin (line ++ ['\n'])]) []
          pieces).behind ['\n'] := by
  have hline : line ++ ['\n'] ≠ [] := List.append_ne_nil_of_right_ne_nil _ (List.cons_ne_nil _ _)
  rw [commentEnd, prependPiece, pieceLines_cons hline, commentEnd, pieceLines_prependPiece_nil,
    List.append_assoc]
  rfl

theorem commentPass_of_plain {cursor : Cursor} {lineStart : Position} {line rest : Text} {c : Char}
    (hline : cursor.IsInLine lineStart line) (hrest : cursor.rest = c :: rest)
    (hclose : Text.afterToken? closer cursor.rest = none)
    (hopen : Text.afterToken? inner cursor.rest = none) (lines : List Text) (depth : Nat) :
    Id.run (commentPass inner closer margin ⟨cursor, lines, lineStart, depth⟩)
      = if c = '\n' then
          .again ⟨cursor.read [c], lines ++ [Text.dropMargin margin (line ++ [c])],
            (cursor.read [c]).position, depth⟩
        else .again ⟨cursor.read [c], lines, lineStart, depth⟩ := by
  have hread : cursor.rest = [c] ++ rest := hrest
  rw [commentPass, if_neg (Cursor.not_atEnd_of_cons hrest), Id.run_bind,
    Cursor.run_matchTokenM_of_none hclose]
  dsimp only
  rw [Id.run_bind, Cursor.run_matchTokenM_of_none hopen]
  dsimp only
  rw [Id.run_bind, Cursor.run_reading_take_one hrest]
  dsimp only
  rw [Cursor.sliceFrom?, (hline.read hread).slice?_eq]
  simp only [List.cons.injEq, and_true]
  split <;> rfl

/-- The invariant of the loop: `line` has been read since the last line break, and goes in front of
the first of the pieces that are left. -/
theorem commentPass_ends {cursor : Cursor} {lines : List Text} {lineStart : Position}
    {line text : Text} {depth : Nat} (hline : cursor.IsInLine lineStart line)
    (hrest : cursor.rest = text) :
    EndsWithin (commentPass inner closer margin) text.length ⟨cursor, lines, lineStart, depth + 1⟩
      (cursor.finish ((commentPieces inner closer depth text).map
        (commentEnd closer margin lines line))) := by
  fun_induction commentPieces inner closer depth text
    generalizing cursor lines lineStart line with
  | case1 => exact .gaveUp hrest (if_pos (Cursor.atEnd_of_nil hrest))
  | case2 c rest after hclose =>
    rw [← hrest] at hclose
    have hslice : (cursor.read closer).slice? lineStart cursor.position = some line :=
      hline.slice?_eq
    apply EndsWithin.done
    rw [commentPass, if_neg (Cursor.not_atEnd_of_cons hrest), Id.run_bind,
      Cursor.run_matchTokenM_of_some hclose]
    dsimp only
    rw [Id.run_bind, Counting.run_pred_succ, if_pos rfl, hslice, Option.map_some, commentEnd,
      List.flatten_singleton, Cursor.finish_last]
    -- what stands before the end token is a line unless it is empty
    cases line with
    | nil => simp [prependPiece, pieceLines]
    | cons d line => simp [prependPiece, pieceLines]
  | case3 c rest after hclose depth hless ih =>
    rw [← hrest] at hclose
    have hread := (Text.afterToken?_eq_some_iff.mp hclose).2
    have hnext := @ih _ lines _ _ (hline.read hread) (Cursor.rest_read hread)
    rw [Cursor.finish_read hread, Option.map_map] at hnext
    rw [Option.map_map]
    simp only [Function.comp_def, commentEnd_prependPiece]
    refine .again ?_ hless hnext
    rw [commentPass, if_neg (Cursor.not_atEnd_of_cons hrest), Id.run_bind,
      Cursor.run_matchTokenM_of_some hclose]
    dsimp only
    rw [Id.run_bind, Counting.run_pred_succ, if_neg (Nat.succ_ne_zero depth)]
    rfl
  | case4 depth c rest hclose after hopen hless ih =>
    rw [← hrest] at hclose hopen
    have hread := (Text.afterToken?_eq_some_iff.mp hopen).2
    have hnext := @ih _ lines _ _ (hline.read hread) (Cursor.rest_read hread)
    rw [Cursor.finish_read hread, Option.map_map] at hnext
    rw [Option.map_map]
    simp only [Function.comp_def, commentEnd_prependPiece]
    refine .again ?_ hless hnext
    rw [commentPass, if_neg (Cursor.not_atEnd_of_cons hrest), Id.run_bind,
      Cursor.run_matchTokenM_of_none hclose]
    dsimp only
    rw [Id.run_bind, Cursor.run_matchTokenM_of_some hopen]
    rfl
  | case5 depth c rest hclose hopen ih =>
    rw [← hrest] at hclose hopen
    have hread : cursor.rest = [c] ++ rest := hrest
    have hinside := hline.read hread
    have hpass : Id.run (commentPass inner closer margin ⟨cursor, lines, lineStart, depth + 1⟩)
        = _ :=
      commentPass_of_plain hline hrest hclose hopen lines (depth + 1)
    rw [Option.map_map]
    by_cases hc : c = '\n'
    · subst hc
      rw [if_pos rfl] at hpass
      have hnext := @ih _ (lines ++ [Text.dropMargin margin (line ++ ['\n'])]) _ _ hinside.newLine
        (Cursor.rest_read hread)
      rw [Cursor.finish_read hread, Option.map_map] at hnext
      simp only [Function.comp_def, if_pos, commentEnd_feed]
      exact .again hpass (Nat.lt_succ_self _) hnext
    · rw [if_neg hc] at hpass
      have hnext := @ih _ lines _ _ hinside (Cursor.rest_read hread)
      rw [Cursor.finish_read hread, Option.map_map] at hnext
      simp only [Function.comp_def, if_neg hc, commentEnd_prependPiece]
      exact .again hpass (Nat.lt_succ_self _) hnext

theorem commentEnding?_eq (text : Text) :
    commentEnding? inner closer margin text
      = (commentPieces inner closer 0 text).map (commentEnd closer margin [] []) := by
  rw [commentEnding?]
  congr 1
  funext pieces
  rw [commentEnd, pieceLines_prependPiece_nil]
  rfl

theorem commentPass_ends_comment {cursor : Cursor} {front : Text} (hread : cursor.HasRead front)
    (inner closer : Text) (margin : Option Text) :
    EndsWithin (commentPass inner closer margin) cursor.rest.length
      ⟨cursor, [], cursor.position, 1⟩
      (cursor.finish (commentEnding? inner closer margin cursor.rest)) := by
  rw [commentEnding?_eq]
  exact commentPass_ends (.start hread) rfl

end Comments

/-! ## Blocks closed by a whole line -/

section ClosingLines

variable {m : Type → Type} [Monad m] [Counting m]

/-- A pass of the loop for blocks that a whole line closes: that line, or any other. To see which,
the line is read by `closes`, and given back if it is another. -/
def linesPass (closes : Cursor → m (Bool × Cursor)) (state : Cursor × List Text) :
    m (Pass (Cursor × List Text) (BlockEnd × Cursor)) := do
  if state.1.atEnd then return .done (← state.1.giveUp)
  else
    match ← closes state.1 with
    | (true, after) => return .done (⟨state.2, true⟩, after)
    | (false, tried) =>
      let line ← (tried.returnTo state.1.here).reading Cursor.takeLine
      return .again (line.2, state.2 ++ [line.1])

/-- The end of the source, or a line break. -/
def endsLine (cursor : Cursor) : m (Bool × Cursor) :=
  if cursor.atEnd then return (true, cursor) else cursor.eatLineBreak

/-- Try to read a line that is `closer` and no more. -/
def anchoredCloses (closer : Text) (cursor : Cursor) : m (Bool × Cursor) := do
  match ← cursor.matchTokenM closer with
  | (true, after) => endsLine after
  | (false, same) => return (false, same)

/-- Try to read a line that is `terminator` and perhaps a semicolon. -/
def heredocCloses (terminator : Text) (cursor : Cursor) : m (Bool × Cursor) := do
  match ← cursor.matchTokenM terminator with
  | (true, after) => endsLine (← after.matchTokenM [';']).2
  | (false, same) => return (false, same)

/-- What a try to read a closing line comes to when the line is `found`: the line is read, or the
cursor is still one of the source. -/
def Cursor.Closes (cursor : Cursor) (tried : Bool × Cursor) : Option (Text × Text) → Prop
  | some (body, last) => tried.1 = true
      ∧ ∀ lines, cursor.finish (some ⟨lines, body, some last⟩) = (⟨lines, true⟩, tried.2)
  | none => tried.1 = false ∧ tried.2.text = cursor.text ∧ tried.2.base = cursor.base

variable {cursor : Cursor} {closer : Text}

theorem Cursor.read_nil_read (cursor : Cursor) (text : Text) :
    (cursor.read []).read text = cursor.read text := by
  rw [read, read, read]
  dsimp only
  rw [Place.after_nil]

theorem Cursor.read_append_read (cursor : Cursor) (s t u : Text) :
    (cursor.read (s ++ t)).read u = ((cursor.read s).read t).read u := by
  rw [read, read, read, read, read]
  dsimp only
  rw [Place.after_append]

theorem closes_endsLine {body token rest : Text} (hread : cursor.rest = body ++ (token ++ rest)) :
    cursor.Closes (Id.run (endsLine ((cursor.read body).read token)))
      (lineEnd? body token rest) := by
  have htoken : ((cursor.read body).read token).rest = rest :=
    Cursor.rest_read (Cursor.rest_read hread)
  rw [endsLine, Cursor.atEnd, htoken, lineEnd?]
  by_cases hend : rest.isEmpty = true
  · rw [if_pos hend, if_pos hend]
    exact ⟨rfl, fun lines ↦ Cursor.finish_body hread lines token⟩
  · rw [if_neg hend, if_neg hend, Cursor.run_eatLineBreak, htoken]
    cases Text.lineBreak? rest with
    | none => exact ⟨rfl, rfl, rfl⟩
    | some lineBreak =>
      refine ⟨rfl, ?_⟩
      intro lines
      rw [Cursor.finish_body (hread.trans (List.append_assoc _ _ _).symm),
        Cursor.read_append_read]

theorem closes_anchoredCloses (closer : Text) (cursor : Cursor) :
    cursor.Closes (Id.run (anchoredCloses closer cursor))
      (anchoredClose? closer cursor.rest) := by
  rw [anchoredCloses, anchoredClose?, Id.run_bind, Cursor.run_matchTokenM]
  cases hafter : Text.afterToken? closer cursor.rest with
  | none =>
    rw [Cursor.matchToken_of_none hafter]
    exact ⟨rfl, rfl, rfl⟩
  | some rest =>
    rw [Cursor.matchToken_of_some hafter, ← Cursor.read_nil_read]
    exact closes_endsLine (Text.afterToken?_eq_some_iff.mp hafter).2

theorem closes_heredocCloses (terminator : Text) (cursor : Cursor) :
    cursor.Closes (Id.run (heredocCloses terminator cursor))
      (heredocClose? terminator cursor.rest) := by
  rw [heredocCloses, heredocClose?, Id.run_bind, Cursor.run_matchTokenM]
  cases hafter : Text.afterToken? terminator cursor.rest with
  | none =>
    rw [Cursor.matchToken_of_none hafter]
    exact ⟨rfl, rfl, rfl⟩
  | some rest =>
    have hread := (Text.afterToken?_eq_some_iff.mp hafter).2
    rw [Cursor.matchToken_of_some hafter, Option.bind_some]
    dsimp only
    rw [Id.run_bind, Cursor.run_matchTokenM]
    cases hmore : Text.afterToken? [';'] rest with
    | none =>
      rw [← Cursor.rest_read hread] at hmore
      rw [Cursor.matchToken_of_none hmore, ← Cursor.read_nil_read]
      exact closes_endsLine hread
    | some more =>
      have hsemicolon := (Text.afterToken?_eq_some_iff.mp hmore).2
      rw [← Cursor.rest_read hread] at hmore
      rw [Cursor.matchToken_of_some hmore]
      exact closes_endsLine (hread.trans (congrArg (terminator ++ ·) hsemicolon))

theorem linesPass_ends {closes : Cursor → Id (Bool × Cursor)}
    {close? : Text → Option (Text × Text)} {lines : List Text} {text : Text}
    (hcloses : ∀ cursor : Cursor, cursor.Closes (Id.run (closes cursor)) (close? cursor.rest))
    (hrest : cursor.rest = text) :
    EndsWithin (linesPass closes) text.length (cursor, lines)
      (cursor.finish ((linesEnding? close? text).map (Ending.addLines lines id))) := by
  fun_induction linesEnding? close? text generalizing cursor lines with
  | case1 => exact .gaveUp hrest (if_pos (Cursor.atEnd_of_nil hrest))
  | case2 c rest body last hhere =>
    have htried := hcloses cursor
    rcases hresult : Id.run (closes cursor) with ⟨found, after⟩
    rw [hrest, hhere, hresult] at htried
    obtain ⟨rfl, hfinish⟩ := htried
    apply EndsWithin.done
    rw [linesPass, if_neg (Cursor.not_atEnd_of_cons hrest), Id.run_bind, hresult]
    dsimp only [Option.map_some, Ending.addLines]
    rw [hfinish, List.map_nil, List.append_nil, Id.run_pure]
  | case3 c rest hhere hless line =>
    rename_i ih
    have htried := hcloses cursor
    rcases hresult : Id.run (closes cursor) with ⟨found, tried⟩
    rw [hrest, hhere, hresult] at htried
    obtain ⟨rfl, htext, hbase⟩ := htried
    -- the line is read again from where it began, whatever was tried
    have hreturn : (tried.returnTo cursor.here).takeLine = (line, cursor.read line) := by
      have hline : (Text.splitLine (tried.returnTo cursor.here).rest).1 = line := by
        exact congrArg (fun text ↦ (Text.splitLine text).1) hrest
      rw [Cursor.takeLine_eq, hline, Cursor.read, Cursor.read, Cursor.returnTo, htext, hbase]
    have hread : cursor.rest = line ++ (Text.splitLine (c :: rest)).2 := by
      rw [hrest, Text.splitLine_append]
    have hnext := @ih _ (lines ++ [line]) (Cursor.rest_read hread)
    rw [Cursor.finish_read hread, Option.map_map] at hnext
    rw [Option.map_map]
    have hpass : Id.run (linesPass closes (cursor, lines))
        = .again (cursor.read line, lines ++ [line]) := by
      rw [linesPass, if_neg (Cursor.not_atEnd_of_cons hrest), Id.run_bind, hresult]
      dsimp only
      rw [Id.run_bind, Cursor.run_reading_takeLine, hreturn, Id.run_pure]
    refine .again hpass hless ?_
    simpa [Function.comp_def, Ending.addLines, Ending.behind] using hnext

theorem linesPass_ends_lines {closes : Cursor → Id (Bool × Cursor)}
    {close? : Text → Option (Text × Text)}
    (hcloses : ∀ cursor : Cursor, cursor.Closes (Id.run (closes cursor)) (close? cursor.rest))
    (cursor : Cursor) :
    EndsWithin (linesPass closes) cursor.rest.length (cursor, [])
      (cursor.finish (linesEnding? close? cursor.rest)) := by
  have hlines : (linesEnding? close? cursor.rest).map (Ending.addLines [] id)
      = linesEnding? close? cursor.rest := by
    cases linesEnding? close? cursor.rest with
    | none => rfl
    | some ending => simp [Ending.addLines]
  rw [← hlines]
  exact linesPass_ends hcloses rfl

end ClosingLines

/-! ## All kinds -/

/-- What a reader keeps of an opener: nothing, the depth of nesting or the label of a heredoc. -/
inductive OpenState where
  /-- Nothing. -/
  | plain
  /-- The number of comments that are open. -/
  | nested (depth : Nat)
  /-- What the opening line of a heredoc says. -/
  | heredoc (label : HeredocLabel)
deriving DecidableEq

def Delimited.state : Delimited → OpenState
  | .nested .. => .nested 1
  | _ => .plain

/-- What is kept of an opened block. -/
def OpenBlock.state : OpenBlock → OpenState
  | .delimited form => form.state
  | .heredoc label => .heredoc label

/-- Read to the end of a block with the loop of its kind, in at most `fuel` passes. A heredoc of
which no label was kept is given up at once. -/
def Cursor.endBlock {m : Type → Type} [Monad m] [Counting m] (cursor : Cursor) (fuel : Nat) :
    Block → OpenState → m (Option (BlockEnd × Cursor))
  | .delimited (.string _ closer escape), _ => runLoop (stringPass closer escape) fuel cursor
  | .delimited (.line opener), _ => runLoop (linePass opener) fuel (cursor, [])
  | .delimited (.comment _ closer margin), _ =>
    runLoop (commentPass [] closer margin) fuel ⟨cursor, [], cursor.position, 1⟩
  | .delimited (.doubled quote), _ => runLoop (doubledPass quote) fuel cursor
  | .delimited (.anchored _ closer), _ =>
    runLoop (linesPass (anchoredCloses closer)) fuel (cursor, [])
  | .delimited (.nested opener closer margin), .nested depth =>
    runLoop (commentPass opener closer margin) fuel ⟨cursor, [], cursor.position, depth⟩
  | .delimited (.nested opener closer margin), _ =>
    runLoop (commentPass opener closer margin) fuel ⟨cursor, [], cursor.position, 1⟩
  | .delimited (.fence mark), _ => runLoop (fencePass mark) fuel cursor
  | .delimited (.raw _ quote), _ => runLoop (doubledPass quote) fuel cursor
  | .heredoc, .heredoc label =>
    runLoop (linesPass (heredocCloses label.terminator)) fuel (cursor, [])
  | .heredoc, _ => return some (← cursor.giveUp)

/-- **Every loop ends, and comes to the end of the block.** It takes one pass at most for each
character that is unread, and one more. -/
theorem Cursor.endBlock_eq_closeBlock {cursor : Cursor} {front : Text}
    (hread : cursor.HasRead front) (opened : OpenBlock) :
    Id.run (cursor.endBlock (cursor.rest.length + 1) opened.block opened.state)
      = some (cursor.closeBlock opened) := by
  have hfuel : cursor.rest.length < cursor.rest.length + 1 := Nat.lt_succ_self _
  rw [closeBlock_eq_finish]
  cases opened with
  | heredoc label => exact linesPass_ends_lines (closes_heredocCloses _) cursor _ hfuel
  | delimited form =>
    cases form with
    | string opener closer escape => exact stringPass_ends rfl _ hfuel
    | line opener => exact linePass_ends rfl _ hfuel
    | comment opener closer margin =>
      exact commentPass_ends_comment hread [] closer margin _ hfuel
    | doubled quote => exact doubledPass_ends rfl _ hfuel
    | anchored opener closer => exact linesPass_ends_lines (closes_anchoredCloses _) cursor _ hfuel
    | nested opener closer margin =>
      exact commentPass_ends_comment hread opener closer margin _ hfuel
    | fence mark => exact fencePass_ends hread rfl _ hfuel
    | raw openers quote => exact doubledPass_ends rfl _ hfuel

end CommentBlocks
