import CommentBlocks.Proofs.BlockText
import CommentBlocks.Proofs.Places

/-!
# Whole runs of a cursor

A cursor keeps a position with three counters, searches in bytes, and jumps back to places it has
been at. This file says that nothing of this can be told apart from something much simpler: an
index into the list of characters, and perhaps a second index to go back to.

## Runs

A run is any sequence of operations. Cursors are values, so a run is not tied to one of them: each
step names the cursor it works on among all that there have been so far, which is what making and
using copies comes to. Positions that a run moves to are those of its own cursors, and are named in
the same way.

## The abstract cursor

`Index` is the abstract cursor, and `Operation.onIndex` says what each operation does to it, in
characters only. `Source.cursorAt` gives the cursor that an index stands for. One step of a cursor
is one step of its index (`Operation.onCursor_cursorAt`), and so is every run.
-/

namespace CommentBlocks

namespace Cursor

/-! ## Operations -/

/-- What can be done with a cursor. -/
inductive Operation where
  /-- Read a token if it comes next. -/
  | matchToken (token : Text)
  /-- Read white space. -/
  | skipSpaces (exclude : Option Char)
  /-- Read a number of characters. -/
  | take (n : Nat)
  /-- Read up to a delimiter. -/
  | takeUntil (delimiter : Text) (inclusive : Bool)
  /-- Read the rest of the line. -/
  | takeLine
  /-- Read everything. -/
  | takeRest
  /-- Undo the last step. -/
  | rollback
  /-- Go to the position of the cursor with a number. -/
  | moveTo (mark : Nat)
  /-- Return to a checkpoint taken of the cursor with a number. -/
  | restore (mark : Nat)
  /-- Read the opener of a block. -/
  | openBlock (block : Block)
  /-- Read an open block to its end. -/
  | closeBlock (block : OpenBlock)
deriving DecidableEq

/-- What an operation answers. -/
inductive Answer where
  /-- Nothing. -/
  | nothing
  /-- Whether something came next. -/
  | flag (found : Bool)
  /-- The text read, if any was. -/
  | text (text : Option Text)
  /-- The block that was opened, if one was. -/
  | opened (block : Option OpenBlock)
  /-- What reading a block came to. -/
  | closed (stop : BlockEnd)
deriving DecidableEq

/-- A step of a run: an operation on the cursor with a number. -/
structure Step where
  /-- The number of the cursor. -/
  cursor : Nat
  /-- What is done with it. -/
  operation : Operation
deriving DecidableEq

/-- A run so far, with cursors of any kind. -/
structure Run (γ : Type) where
  /-- All the cursors there have been, oldest first. -/
  cursors : List γ
  /-- The answers given, oldest first. -/
  answers : List Answer

/-- Add a step to a run. A number that no cursor has is passed over. -/
def Run.step {γ : Type} (act : List γ → γ → Operation → Answer × γ) (run : Run γ) (step : Step) :
    Run γ :=
  match run.cursors[step.cursor]? with
  | none => run
  | some cursor =>
    let (answer, next) := act run.cursors cursor step.operation
    ⟨run.cursors ++ [next], run.answers ++ [answer]⟩

/-- An operation on a cursor. -/
def Operation.onCursor (marks : List Cursor) (cursor : Cursor) : Operation → Answer × Cursor
  | matchToken token => (.flag (cursor.matchToken token).1, (cursor.matchToken token).2)
  | skipSpaces exclude => (.text (cursor.skipSpaces exclude).1, (cursor.skipSpaces exclude).2)
  | take n => (.text (cursor.take n).1, (cursor.take n).2)
  | takeUntil delimiter inclusive =>
    (.text (cursor.takeUntil delimiter inclusive).1, (cursor.takeUntil delimiter inclusive).2)
  | takeLine => (.text cursor.takeLine.1, cursor.takeLine.2)
  | takeRest => (.text cursor.takeRest.1, cursor.takeRest.2)
  | rollback => (.nothing, cursor.rollback)
  | moveTo mark =>
    (.nothing, (marks[mark]?).elim cursor fun other ↦ cursor.moveTo other.position)
  | restore mark =>
    (.nothing, (marks[mark]?).elim cursor fun other ↦ cursor.returnTo other.here)
  | openBlock block => (.opened (cursor.openBlock block).1, (cursor.openBlock block).2)
  | closeBlock block => (.closed (cursor.closeBlock block).1, (cursor.closeBlock block).2)

end Cursor

def Source.run (source : Source) (steps : List Cursor.Step) : Cursor.Run Cursor :=
  steps.foldl (Cursor.Run.step Cursor.Operation.onCursor) ⟨[source.cursor], []⟩

/-! ## The abstract cursor -/

/-- An index into the characters of a source, and one that can be gone back to. -/
structure Index where
  /-- The number of characters read. -/
  here : Nat
  /-- The number of characters read before the last step, if it can still be undone. -/
  undo : Option Nat
deriving DecidableEq

namespace Index

def read (index : Index) (n : Nat) : Index := ⟨index.here + n, some index.here⟩

/-- The index is one of the source, and the step to undo was no later. -/
def Within (source : Source) (index : Index) : Prop :=
  index.here ≤ source.text.length ∧ ∀ undo ∈ index.undo, undo ≤ index.here

end Index

/-- The cursor that an index stands for. -/
def Source.cursorAt (source : Source) (index : Index) : Cursor :=
  ⟨source.text, source.start.byteOffset, source.placeAt index.here, index.undo.map source.placeAt⟩

namespace Cursor

def Operation.onIndex (source : Source) (marks : List Index) (index : Index) :
    Operation → Answer × Index :=
  let rest : Text := source.text.drop index.here
  fun
  | matchToken token =>
    if Text.startsWith token rest then (.flag true, index.read token.length)
    else (.flag false, index)
  | skipSpaces exclude =>
    let spaces := rest.takeWhile fun c ↦ isSpace c && some c != exclude
    (.text spaces, index.read spaces.length)
  | take n => (.text (rest.take n), index.read (min n rest.length))
  | takeUntil delimiter inclusive =>
    match Text.before? delimiter rest with
    | none => (.text none, index)
    | some front =>
      let text := if inclusive then front ++ delimiter else front
      (.text text, index.read text.length)
  | takeLine => (.text (Text.splitLine rest).1, index.read (Text.splitLine rest).1.length)
  | takeRest => (.text rest, index.read rest.length)
  | rollback => (.nothing, ⟨index.undo.getD index.here, none⟩)
  | moveTo mark | restore mark =>
    (.nothing, (marks[mark]?).elim index fun other ↦ ⟨other.here, none⟩)
  | openBlock block =>
    match block.openingAt (source.placeAt index.here) with
    | .refused returned => (.opened none, if returned then ⟨index.here, none⟩ else index)
    | .opened opened body last =>
      (.opened opened, ⟨index.here + (body ++ last).length, some (index.here + body.length)⟩)
  | closeBlock block =>
    match block.ending? rest with
    | none => (.closed ⟨[], false⟩, ⟨source.text.length, some source.text.length⟩)
    | some ending =>
      (.closed ⟨ending.lines, true⟩,
        ⟨index.here + ending.read.length, ending.last.map fun _ ↦ index.here + ending.body.length⟩)

end Cursor

/-- The same run of indices. -/
def Source.indexRun (source : Source) (steps : List Cursor.Step) : Cursor.Run Index :=
  steps.foldl (Cursor.Run.step (Cursor.Operation.onIndex source)) ⟨[⟨0, none⟩], []⟩

/-! ## One step -/

namespace Source

variable {source : Source} {index : Index}

@[simp] theorem rest_cursorAt : (source.cursorAt index).rest = source.text.drop index.here := rfl

@[simp] theorem here_cursorAt : (source.cursorAt index).here = source.placeAt index.here := rfl

theorem read_cursorAt {text rest : Text} (h : source.text.drop index.here = text ++ rest) :
    (source.cursorAt index).read text = source.cursorAt (index.read text.length) := by
  rw [Cursor.read, here_cursorAt, after_placeAt h]
  rfl

theorem returnTo_cursorAt (other : Nat) :
    (source.cursorAt index).returnTo (source.placeAt other) = source.cursorAt ⟨other, none⟩ := rfl

/-- A position of the source is one of its places, so moving there is returning there. -/
theorem moveTo_cursorAt (other : Nat) :
    (source.cursorAt index).moveTo (source.positionAt other) = source.cursorAt ⟨other, none⟩ := by
  have hsplit : Text.splitAtByte?
      ((source.positionAt other).byteOffset - (source.cursorAt index).base)
      (source.cursorAt index).text = some (source.text.take other, source.text.drop other) :=
    source.splitAtByte?_positionAt other
  rw [Cursor.moveTo, hsplit]
  exact returnTo_cursorAt other

theorem matchToken_cursorAt (token : Text) :
    (source.cursorAt index).matchToken token =
      if Text.startsWith token (source.text.drop index.here) then
        (true, source.cursorAt (index.read token.length))
      else (false, source.cursorAt index) := by
  rw [Cursor.matchToken, rest_cursorAt]
  by_cases h : Text.startsWith token (source.text.drop index.here) = true
  · obtain ⟨-, rest, hrest⟩ := Text.startsWith_iff.mp h
    rw [if_pos h, if_pos h, read_cursorAt hrest]
  · rw [if_neg h, if_neg h]

theorem takeUntil_cursorAt (delimiter : Text) (inclusive : Bool) :
    (source.cursorAt index).takeUntil delimiter inclusive =
      match Text.before? delimiter (source.text.drop index.here) with
      | none => (none, source.cursorAt index)
      | some front =>
        let text := if inclusive then front ++ delimiter else front
        (some text, source.cursorAt (index.read text.length)) := by
  rw [Cursor.takeUntil_eq, rest_cursorAt]
  cases hfront : Text.before? delimiter (source.text.drop index.here) with
  | none => rfl
  | some front =>
    obtain ⟨tail, htail⟩ := Text.eq_append_of_before? hfront
    -- both ways of reading take a front of what is unread
    have hread : source.text.drop index.here
        = (if inclusive then front ++ delimiter else front)
          ++ (if inclusive then tail else delimiter ++ tail) := by
      cases inclusive with
      | false => exact htail
      | true => exact htail.trans (List.append_assoc _ _ _).symm
    dsimp only
    rw [read_cursorAt hread]

theorem rollback_cursorAt :
    (source.cursorAt index).rollback = source.cursorAt ⟨index.undo.getD index.here, none⟩ := by
  rw [Cursor.rollback, cursorAt, cursorAt]
  cases index.undo with
  | none => rfl
  | some undo => rfl

theorem openBlock_cursorAt (block : Block) :
    (source.cursorAt index).openBlock block =
      match block.openingAt (source.placeAt index.here) with
      | .refused returned =>
        (none, source.cursorAt (if returned then ⟨index.here, none⟩ else index))
      | .opened opened body last =>
        (some opened, source.cursorAt
          ⟨index.here + (body ++ last).length, some (index.here + body.length)⟩) := by
  rw [Cursor.openBlock, here_cursorAt]
  cases hopening : block.openingAt (source.placeAt index.here) with
  | refused returned => cases returned <;> rfl
  | opened opened body last =>
    obtain ⟨-, rest, hrest⟩ := Block.openingAt_opened hopening
    rw [rest_placeAt] at hrest
    have hbody : source.text.drop index.here = body ++ (last ++ rest) := by
      rw [hrest, List.append_assoc]
    dsimp only
    rw [after_placeAt hrest, after_placeAt hbody]
    rfl

theorem takeRest_cursorAt (h : index.here ≤ source.text.length) :
    (source.cursorAt index).takeRest
      = (source.text.drop index.here, source.cursorAt ⟨source.text.length, some index.here⟩) := by
  rw [Cursor.takeRest, rest_cursorAt, read_cursorAt (List.append_nil _).symm, Index.read,
    List.length_drop, Nat.add_sub_cancel' h]

theorem closeBlock_cursorAt (h : index.here ≤ source.text.length) (block : OpenBlock) :
    (source.cursorAt index).closeBlock block =
      match block.ending? (source.text.drop index.here) with
      | none => (⟨[], false⟩, source.cursorAt ⟨source.text.length, some source.text.length⟩)
      | some ending =>
        (⟨ending.lines, true⟩, source.cursorAt
          ⟨index.here + ending.read.length,
            ending.last.map fun _ ↦ index.here + ending.body.length⟩) := by
  rw [Cursor.closeBlock, rest_cursorAt]
  cases hending : block.ending? (source.text.drop index.here) with
  | none =>
    -- the rest is read twice, and the second time there is none: that is the step to undo
    dsimp only
    rw [takeRest_cursorAt h, takeRest_cursorAt (Nat.le_refl _)]
  | some ending =>
    obtain ⟨rest, hrest⟩ := OpenBlock.ending?_eq_some hending
    have hbody : source.text.drop index.here = ending.body ++ (ending.last.getD [] ++ rest) := by
      rw [hrest, Ending.read, List.append_assoc]
    dsimp only
    rw [here_cursorAt, after_placeAt hrest, after_placeAt hbody]
    cases ending.last with
    | none => rfl
    | some last => rfl

end Source

namespace Cursor

variable {source : Source} {marks : List Index} {index : Index}

/-- **A step of a cursor is a step of its index**, with the same answer. -/
theorem Operation.onCursor_cursorAt (h : index.here ≤ source.text.length)
    (operation : Operation) :
    operation.onCursor (marks.map source.cursorAt) (source.cursorAt index)
      = ((operation.onIndex source marks index).1,
        source.cursorAt (operation.onIndex source marks index).2) := by
  cases operation with
  | matchToken token =>
    dsimp only [onCursor, onIndex]
    rw [Source.matchToken_cursorAt]
    split <;> rfl
  | skipSpaces exclude =>
    dsimp only [onCursor, onIndex, Cursor.skipSpaces]
    rw [Source.rest_cursorAt, Source.read_cursorAt List.takeWhile_append_dropWhile.symm]
  | take n =>
    dsimp only [onCursor, onIndex, Cursor.take]
    rw [Source.rest_cursorAt, Source.read_cursorAt (List.take_append_drop n _).symm,
      List.length_take]
  | takeUntil delimiter inclusive =>
    dsimp only [onCursor, onIndex]
    rw [Source.takeUntil_cursorAt]
    split <;> rfl
  | takeLine =>
    dsimp only [onCursor, onIndex]
    rw [Cursor.takeLine_eq, Source.rest_cursorAt,
      Source.read_cursorAt (Text.splitLine_append _).symm]
  | takeRest =>
    dsimp only [onCursor, onIndex, Cursor.takeRest]
    rw [Source.rest_cursorAt, Source.read_cursorAt (List.append_nil _).symm]
  | rollback =>
    dsimp only [onCursor, onIndex]
    rw [Source.rollback_cursorAt]
  | moveTo mark =>
    dsimp only [onCursor, onIndex]
    rw [List.getElem?_map]
    cases marks[mark]? with
    | none => rfl
    | some other => exact congrArg _ (Source.moveTo_cursorAt other.here)
  | restore mark =>
    dsimp only [onCursor, onIndex]
    rw [List.getElem?_map]
    cases marks[mark]? with
    | none => rfl
    | some other => exact congrArg _ (Source.returnTo_cursorAt other.here)
  | openBlock block =>
    dsimp only [onCursor, onIndex]
    rw [Source.openBlock_cursorAt]
    split <;> rfl
  | closeBlock block =>
    dsimp only [onCursor, onIndex]
    rw [Source.closeBlock_cursorAt h]
    split <;> rfl

end Cursor

/-! ## Staying within the source -/

namespace Index

variable {source : Source} {index : Index}

theorem Within.of_none {here : Nat} (h : here ≤ source.text.length) :
    Within source ⟨here, none⟩ :=
  ⟨h, fun _ hundo ↦ absurd hundo (Option.not_mem_none _)⟩

theorem Within.forward {body last rest : Text} (h : index.here ≤ source.text.length)
    (hrest : source.text.drop index.here = body ++ last ++ rest) :
    Within source ⟨index.here + (body ++ last).length, some (index.here + body.length)⟩ := by
  have hlen := congrArg List.length hrest
  rw [List.length_drop, List.length_append] at hlen
  constructor
  · change index.here + (body ++ last).length ≤ source.text.length
    omega
  · intro undo hundo
    rw [← Option.mem_some_iff.mp hundo, List.length_append]
    change index.here + body.length ≤ index.here + (body.length + last.length)
    omega

theorem Within.read {text rest : Text} (h : index.here ≤ source.text.length)
    (hrest : source.text.drop index.here = text ++ rest) :
    (index.read text.length).Within source := by
  have hforward : Within source ⟨index.here + ([] ++ text).length, some (index.here + 0)⟩ :=
    Within.forward h hrest
  exact hforward

end Index

namespace Cursor

variable {source : Source} {marks : List Index} {index : Index}

theorem Operation.within_onIndex (hmarks : ∀ mark ∈ marks, mark.Within source)
    (hindex : index.Within source) (operation : Operation) :
    (operation.onIndex source marks index).2.Within source := by
  have hmark : ∀ mark : Nat, Index.Within source
      (marks[mark]?.elim index fun other ↦ ⟨other.here, none⟩) := by
    intro mark
    cases hother : marks[mark]? with
    | none => exact hindex
    | some other => exact .of_none (hmarks other (List.mem_of_getElem? hother)).1
  cases operation with
  | matchToken token =>
    dsimp only [onIndex]
    split
    · next h =>
      obtain ⟨-, rest, hrest⟩ := Text.startsWith_iff.mp h
      exact .read hindex.1 hrest
    · exact hindex
  | skipSpaces exclude => exact .read hindex.1 List.takeWhile_append_dropWhile.symm
  | take n =>
    dsimp only [onIndex]
    rw [← List.length_take]
    exact .read hindex.1 (List.take_append_drop n _).symm
  | takeUntil delimiter inclusive =>
    dsimp only [onIndex]
    split
    · exact hindex
    · next front hfront =>
      obtain ⟨tail, htail⟩ := Text.eq_append_of_before? hfront
      cases inclusive with
      | false => exact .read hindex.1 htail
      | true => exact .read hindex.1 (htail.trans (List.append_assoc _ _ _).symm)
  | takeLine => exact .read hindex.1 (Text.splitLine_append _).symm
  | takeRest => exact .read hindex.1 (List.append_nil _).symm
  | rollback =>
    refine .of_none ?_
    cases hundo : index.undo with
    | none => exact hindex.1
    | some undo => exact Nat.le_trans (hindex.2 undo hundo) hindex.1
  | moveTo mark => exact hmark mark
  | restore mark => exact hmark mark
  | openBlock block =>
    dsimp only [onIndex]
    split
    · next returned _ =>
      cases returned with
      | false => exact hindex
      | true => exact .of_none hindex.1
    · next opened body last hopening =>
      obtain ⟨-, rest, hrest⟩ := Block.openingAt_opened hopening
      exact .forward hindex.1 hrest
  | closeBlock block =>
    dsimp only [onIndex]
    split
    · refine ⟨Nat.le_refl _, ?_⟩
      intro undo hundo
      exact Nat.le_of_eq (Option.mem_some_iff.mp hundo).symm
    · next ending hending =>
      obtain ⟨rest, hrest⟩ := OpenBlock.ending?_eq_some hending
      have hread := Index.Within.forward hindex.1 hrest
      refine ⟨hread.1, ?_⟩
      intro undo hundo
      obtain ⟨last, -, rfl⟩ := Option.map_eq_some_iff.mp hundo
      exact hread.2 _ rfl

/-! ## Whole runs -/

/-- A run of cursors and a run of indices that stand for them. -/
structure Run.StandsFor (source : Source) (indices : Run Index) (run : Run Cursor) : Prop where
  /-- The same answers were given. -/
  answers : run.answers = indices.answers
  /-- Each cursor is the one its index stands for. -/
  cursors : run.cursors = indices.cursors.map source.cursorAt
  /-- No index has left the source. -/
  within : ∀ index ∈ indices.cursors, index.Within source

theorem Run.StandsFor.step {indices : Run Index} {run : Run Cursor}
    (h : indices.StandsFor source run) (step : Step) :
    (indices.step (Operation.onIndex source) step).StandsFor source
      (run.step Operation.onCursor step) := by
  have hcursor : run.cursors[step.cursor]? = indices.cursors[step.cursor]?.map source.cursorAt := by
    rw [h.cursors, List.getElem?_map]
  unfold Run.step
  rw [hcursor]
  cases hindex : indices.cursors[step.cursor]? with
  | none => exact h
  | some index =>
    have hwithin := h.within index (List.mem_of_getElem? hindex)
    have hstep : step.operation.onCursor run.cursors (source.cursorAt index)
        = ((step.operation.onIndex source indices.cursors index).1,
          source.cursorAt (step.operation.onIndex source indices.cursors index).2) := by
      rw [h.cursors]
      exact step.operation.onCursor_cursorAt hwithin.1
    dsimp only [Option.map_some]
    rw [hstep]
    refine ⟨?_, ?_, ?_⟩
    · dsimp only
      rw [h.answers]
    · dsimp only
      rw [h.cursors, List.map_append, List.map_singleton]
    · intro other hother
      rcases List.mem_append.mp hother with hold | hnew
      · exact h.within other hold
      · rw [List.mem_singleton.mp hnew]
        exact step.operation.within_onIndex h.within hwithin

theorem Run.StandsFor.foldl {indices : Run Index} {run : Run Cursor}
    (h : indices.StandsFor source run) (steps : List Step) :
    (steps.foldl (Run.step (Operation.onIndex source)) indices).StandsFor source
      (steps.foldl (Run.step Operation.onCursor) run) := by
  induction steps generalizing indices run with
  | nil => exact h
  | cons step steps ih => exact ih (h.step step)

end Cursor

namespace Source

variable (source : Source)

theorem standsFor_run (steps : List Cursor.Step) :
    (source.indexRun steps).StandsFor source (source.run steps) := by
  refine Cursor.Run.StandsFor.foldl ⟨rfl, rfl, ?_⟩ steps
  intro index hindex
  rw [List.mem_singleton.mp hindex]
  exact .of_none (Nat.zero_le _)

variable {source}

theorem exists_index_of_mem_run {steps : List Cursor.Step} {cursor : Cursor}
    (h : cursor ∈ (source.run steps).cursors) :
    ∃ index, index.Within source ∧ cursor = source.cursorAt index := by
  rw [(source.standsFor_run steps).cursors] at h
  obtain ⟨index, hindex, rfl⟩ := List.mem_map.mp h
  exact ⟨index, (source.standsFor_run steps).within index hindex, rfl⟩

/-- A place of the source: its position is reached by reading a front of the text, which takes as
many bytes as the position is from the start, and the rest is unread there. -/
def HasPlace (source : Source) (place : Place) : Prop :=
  ∃ front, source.text = front ++ place.rest ∧ place.position = source.start.advanceText front
    ∧ Text.byteLength front = place.position.byteOffset - source.start.byteOffset

theorem hasPlace_placeAt (index : Nat) : source.HasPlace (source.placeAt index) := by
  refine ⟨source.text.take index, (List.take_append_drop _ _).symm, rfl, ?_⟩
  rw [position_placeAt, byteOffset_positionAt, Nat.add_sub_cancel_left]

theorem slice?_cursorAt {index : Index} {first last : Nat} (h : first ≤ last) :
    (source.cursorAt index).slice? (source.positionAt first) (source.positionAt last)
      = some ((source.text.drop first).take (last - first)) := by
  have hbase : (source.cursorAt index).base = source.start.byteOffset := rfl
  have hfirst := source.byteOffset_positionAt first
  have hlast := congrArg Position.byteOffset (source.positionAt_eq_advanceText h)
  rw [Position.byteOffset_advanceText] at hlast
  have hrest : Text.splitAtByte?
      ((source.positionAt last).byteOffset - (source.positionAt first).byteOffset)
      (source.text.drop first)
        = some ((source.text.drop first).take (last - first),
          (source.text.drop first).drop (last - first)) := by
    rw [Text.splitAtByte?_eq_some_iff]
    exact ⟨(List.take_append_drop _ _).symm, by omega⟩
  rw [Cursor.slice?, if_pos ⟨by omega, by omega⟩, hbase]
  change (Text.splitAtByte? _ source.text).bind _ = _
  rw [splitAtByte?_positionAt, Option.bind_some]
  dsimp only
  rw [hrest, Option.map_some]

/-- **Cursors are indices.** In every run the cursors are, answer by answer, those of the same run
of indices, so each position is a function of an index. It is reached by reading a front of the
text; so is the position to roll back to, which is no later; and between any two positions of the
run that are in order there is a slice, the text between them. -/
theorem run_refines_indexRun (source : Source) (steps : List Cursor.Step) :
    ((source.run steps).answers = (source.indexRun steps).answers
      ∧ (source.run steps).cursors = (source.indexRun steps).cursors.map source.cursorAt
      ∧ ∀ index ∈ (source.indexRun steps).cursors, index.Within source)
    ∧ (∀ cursor ∈ (source.run steps).cursors,
      source.HasPlace cursor.here
        ∧ ∀ undo ∈ cursor.undo, source.HasPlace undo
          ∧ (compare undo.position cursor.position).isLE = true)
    ∧ ∀ cursor ∈ (source.run steps).cursors, ∀ first ∈ (source.run steps).cursors,
      ∀ last ∈ (source.run steps).cursors, (compare first.position last.position).isLE = true →
        ∃ before between after, source.text = before ++ (between ++ after)
          ∧ first.position = source.start.advanceText before
          ∧ last.position = source.start.advanceText (before ++ between)
          ∧ cursor.slice? first.position last.position = some between := by
  have hrun := source.standsFor_run steps
  refine ⟨⟨hrun.answers, hrun.cursors, hrun.within⟩, ?_, ?_⟩
  · intro cursor hcursor
    obtain ⟨index, hwithin, rfl⟩ := exists_index_of_mem_run hcursor
    refine ⟨hasPlace_placeAt _, ?_⟩
    intro undo hundo
    obtain ⟨earlier, hearlier, rfl⟩ := Option.map_eq_some_iff.mp hundo
    have hle := hwithin.2 earlier hearlier
    refine ⟨hasPlace_placeAt _, ?_⟩
    exact (isLE_compare_positionAt_iff (Nat.le_trans hle hwithin.1) hwithin.1).mpr hle
  · intro cursor hcursor first hfirst last hlast hle
    obtain ⟨index, -, rfl⟩ := exists_index_of_mem_run hcursor
    obtain ⟨i, hi, rfl⟩ := exists_index_of_mem_run hfirst
    obtain ⟨j, hj, rfl⟩ := exists_index_of_mem_run hlast
    -- positions in order are indices in order, and an index cuts the text
    have hij : i.here ≤ j.here := (isLE_compare_positionAt_iff hi.1 hj.1).mp hle
    refine ⟨source.text.take i.here, (source.text.drop i.here).take (j.here - i.here),
      source.text.drop j.here, ?_, rfl, ?_, slice?_cursorAt hij⟩
    · rw [← List.append_assoc, source.take_append_between hij, List.take_append_drop]
    · rw [source.take_append_between hij]
      rfl

end Source

end CommentBlocks
