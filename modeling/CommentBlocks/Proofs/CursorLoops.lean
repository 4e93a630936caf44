import CommentBlocks.Block.Reading
import CommentBlocks.Proofs.Places

/-!
# Loops over a cursor

A loop is a function that makes one pass: it goes on from another state, ends with a result, or
fails. `runLoop` goes through it a number of times, and `EndsWithin` says that so many times are
enough.

The loops that read blocks are made of the operations of a cursor. What these do is said here in
terms of the text that is unread, and what the whole of a loop comes to, in terms of the ending that
a rule finds there. `Cursor.finish` is that result, and `Cursor.finish_read` moves it over what one
pass has read: it is what carries every proof about a loop from a pass to the next.

Going back to a position and cutting a slice work with byte offsets. `Cursor.HasRead` says what has
to be known for these to be what they seem: the text before the cursor has as many bytes as its
offset says.

## Counting

Whatever a loop reads, it counts: lines, characters, bytes, and the comments that are open. Loops
and operations are written once for all ways to count (`Counting`). Counted plainly, in `Id`, the
operations are those of the cursor (`Cursor.run_readM` and what follows it), and it is so that loops
are compared with the rules.
-/

namespace CommentBlocks

/-! ## Ways to count -/

/-- A way to count: each number that is kept, and each number that one is taken from, is an effect
of `m`. -/
class Counting (m : Type → Type) where
  count : Nat → m Nat
  pred : Nat → m Nat

/-- Plain numbers have no bound. -/
instance : Counting Id where
  count n := pure n
  pred n := pure (n - 1)

theorem Counting.run_pred_succ (n : Nat) : Id.run (Counting.pred (n + 1)) = n := rfl

/-! ## Loops -/

/-- What one pass through a loop comes to. -/
inductive Pass (σ ρ : Type) where
  /-- The loop goes on. -/
  | again (state : σ)
  /-- The loop ends. -/
  | done (result : ρ)
  /-- A slice was asked for that the source does not have. -/
  | failed
deriving DecidableEq

section Loops

variable {m : Type → Type} [Monad m] {σ ρ : Type}

/-- Go through a loop at most `fuel` times. There is no result if the loop has not ended by then. -/
def runLoop (pass : σ → m (Pass σ ρ)) : Nat → σ → m (Option ρ)
  | 0, _ => return none
  | fuel + 1, state => do
    match ← pass state with
    | .again next => runLoop pass fuel next
    | .done result => return some result
    | .failed => return none

variable {pass : σ → Id (Pass σ ρ)} {state next : σ} {result : ρ}

/-- The loop ends, after `bound` passes that go on at most. -/
def EndsWithin (pass : σ → Id (Pass σ ρ)) (bound : Nat) (state : σ) (result : ρ) : Prop :=
  ∀ fuel, bound < fuel → Id.run (runLoop pass fuel state) = some result

theorem EndsWithin.done {bound : Nat} (h : Id.run (pass state) = .done result) :
    EndsWithin pass bound state result := by
  intro fuel hfuel
  obtain ⟨fuel, rfl⟩ := Nat.exists_eq_add_one_of_ne_zero (Nat.ne_zero_of_lt hfuel)
  rw [runLoop, Id.run_bind, h]
  rfl

theorem EndsWithin.again {bound less : Nat} (h : Id.run (pass state) = .again next)
    (hless : less < bound) (hnext : EndsWithin pass less next result) :
    EndsWithin pass bound state result := by
  intro fuel hfuel
  obtain ⟨fuel, rfl⟩ := Nat.exists_eq_add_one_of_ne_zero (Nat.ne_zero_of_lt hfuel)
  rw [runLoop, Id.run_bind, h]
  exact hnext fuel (by omega)

end Loops

/-! ## Cursor operations, counted -/

namespace Position

variable {m : Type → Type} [Monad m] [Counting m]

def advanceM (p : Position) (c : Char) : m Position := do
  let byteOffset ← Counting.count (p.byteOffset + c.utf8Size)
  if c = '\n' then
    let line ← Counting.count (p.line + 1)
    return ⟨line, 0, byteOffset⟩
  else
    let character ← Counting.count (p.character + 1)
    return ⟨p.line, character, byteOffset⟩

def advanceTextM (p : Position) (text : Text) : m Position := text.foldlM advanceM p

theorem run_advanceM (p : Position) (c : Char) : Id.run (p.advanceM c) = p.advance c := by
  rw [advanceM, advance]
  split <;> rfl

theorem run_advanceTextM (p : Position) (text : Text) :
    Id.run (p.advanceTextM text) = p.advanceText text := by
  induction text generalizing p with
  | nil => rfl
  | cons c text ih =>
    rw [advanceTextM, List.foldlM_cons, Id.run_bind, run_advanceM]
    exact ih _

end Position

namespace Cursor

section Counted

variable {m : Type → Type} [Monad m] [Counting m]

def readM (cursor : Cursor) (text : Text) : m Cursor := do
  let position ← cursor.position.advanceTextM text
  return { cursor with here := ⟨position, cursor.rest.drop text.length⟩, undo := some cursor.here }

def matchTokenM (cursor : Cursor) (token : Text) : m (Bool × Cursor) := do
  if Text.startsWith token cursor.rest then return (true, ← cursor.readM token)
  else return (false, cursor)

/-- Take a step that reads, and count what it reads. -/
def reading (step : Cursor → Text × Cursor) (cursor : Cursor) : m (Text × Cursor) := do
  let text := (step cursor).1
  return (text, ← cursor.readM text)

/-- Read a line break if one comes next. -/
def eatLineBreak (cursor : Cursor) : m (Bool × Cursor) := do
  match ← cursor.matchTokenM ['\n'] with
  | (true, after) => return (true, after)
  | (false, same) => same.matchTokenM ['\r', '\n']

/-- Give up on a block. -/
def giveUp (cursor : Cursor) : m (BlockEnd × Cursor) :=
  return (⟨[], false⟩, (← cursor.reading takeRest).2)

end Counted

variable {cursor : Cursor}

theorem run_readM (cursor : Cursor) (text : Text) :
    Id.run (cursor.readM text) = cursor.read text := by
  rw [readM, Id.run_bind, Position.run_advanceTextM]
  rfl

theorem run_matchTokenM (cursor : Cursor) (token : Text) :
    Id.run (cursor.matchTokenM token) = cursor.matchToken token := by
  rw [matchTokenM, matchToken]
  split
  · rw [Id.run_bind, run_readM]
    rfl
  · rfl

theorem run_reading {step : Cursor → Text × Cursor}
    (h : (step cursor).2 = cursor.read (step cursor).1) :
    Id.run (cursor.reading step) = step cursor := by
  rw [reading, Id.run_bind, run_readM, ← h]
  rfl

theorem run_reading_take (cursor : Cursor) (n : Nat) :
    Id.run (cursor.reading (·.take n)) = cursor.take n :=
  run_reading rfl

theorem run_reading_skipSpaces (cursor : Cursor) (exclude : Option Char) :
    Id.run (cursor.reading (·.skipSpaces exclude)) = cursor.skipSpaces exclude :=
  run_reading rfl

theorem run_reading_takeLine (cursor : Cursor) :
    Id.run (cursor.reading takeLine) = cursor.takeLine := by
  apply run_reading
  rw [takeLine_eq]

end Cursor

/-! ## Cursor operations, by what is unread -/

namespace Cursor

variable {cursor : Cursor} {token text rest : Text}

theorem rest_read (h : cursor.rest = text ++ rest) : (cursor.read text).rest = rest := by
  have hdrop : (cursor.read text).rest = cursor.rest.drop text.length := rfl
  rw [hdrop, h, List.drop_left]

theorem atEnd_of_nil (h : cursor.rest = []) : cursor.atEnd = true := by
  rw [atEnd, h]
  rfl

theorem not_atEnd (h : cursor.rest ≠ []) : ¬cursor.atEnd = true := by
  rw [atEnd, List.isEmpty_iff]
  exact h

theorem not_atEnd_of_cons {c : Char} (h : cursor.rest = c :: rest) : ¬cursor.atEnd = true := by
  apply not_atEnd
  rw [h]
  exact List.cons_ne_nil c rest

theorem matchToken_of_some (h : Text.afterToken? token cursor.rest = some rest) :
    cursor.matchToken token = (true, cursor.read token) := by
  rw [matchToken, Text.startsWith, h]
  rfl

theorem matchToken_of_none (h : Text.afterToken? token cursor.rest = none) :
    cursor.matchToken token = (false, cursor) := by
  rw [matchToken, Text.startsWith, h]
  rfl

theorem run_matchTokenM_of_some (h : Text.afterToken? token cursor.rest = some rest) :
    Id.run (cursor.matchTokenM token) = (true, cursor.read token) := by
  rw [run_matchTokenM, matchToken_of_some h]

theorem run_matchTokenM_of_none (h : Text.afterToken? token cursor.rest = none) :
    Id.run (cursor.matchTokenM token) = (false, cursor) := by
  rw [run_matchTokenM, matchToken_of_none h]

theorem take_one {c : Char} (h : cursor.rest = c :: rest) :
    cursor.take 1 = ([c], cursor.read [c]) := by
  rw [take, h]
  rfl

theorem run_reading_take_one {c : Char} (h : cursor.rest = c :: rest) :
    Id.run (cursor.reading (·.take 1)) = ([c], cursor.read [c]) := by
  rw [run_reading_take, take_one h]

theorem skipSpaces_none (cursor : Cursor) :
    cursor.skipSpaces none
      = (cursor.rest.takeWhile isSpace, cursor.read (cursor.rest.takeWhile isSpace)) := by
  have hspace : (fun c ↦ isSpace c && some c != none) = isSpace := by
    funext c
    exact Bool.and_true _
  rw [skipSpaces, hspace]

theorem run_eatLineBreak (cursor : Cursor) :
    Id.run cursor.eatLineBreak =
      match Text.lineBreak? cursor.rest with
      | some lineBreak => (true, cursor.read lineBreak)
      | none => (false, cursor) := by
  rw [eatLineBreak, Id.run_bind, run_matchTokenM, matchToken, Text.lineBreak?]
  by_cases hfeed : Text.startsWith ['\n'] cursor.rest = true
  · rw [if_pos hfeed, if_pos hfeed]
    rfl
  · rw [if_neg hfeed, if_neg hfeed]
    dsimp only
    rw [run_matchTokenM, matchToken]
    split <;> rfl

/-- `front` is the text before the cursor, which is where the byte offset of the cursor says. -/
structure HasRead (cursor : Cursor) (front : Text) : Prop where
  /-- The text before the cursor and the text behind it make up the source. -/
  text : cursor.text = front ++ cursor.rest
  /-- As many bytes were read. -/
  offset : cursor.position.byteOffset = cursor.base + front.byteLength

variable {front : Text}

theorem HasRead.read (h : cursor.HasRead front) (hrest : cursor.rest = text ++ rest) :
    (cursor.read text).HasRead (front ++ text) := by
  constructor
  · rw [rest_read hrest, List.append_assoc, ← hrest]
    exact h.text
  · have hoffset : (cursor.read text).position.byteOffset
        = cursor.position.byteOffset + text.byteLength := Position.byteOffset_advanceText _ _
    rw [hoffset, h.offset, Text.byteLength_append, Nat.add_assoc]
    rfl

theorem HasRead.moveTo_position (h : cursor.HasRead front) (text : Text) :
    (cursor.read text).moveTo cursor.position = (cursor.read text).returnTo cursor.here := by
  have hsplit : Text.splitAtByte?
      (cursor.position.byteOffset - (cursor.read text).base) (cursor.read text).text
        = some (front, cursor.rest) := by
    change Text.splitAtByte? (cursor.position.byteOffset - cursor.base) cursor.text = _
    rw [Text.splitAtByte?_eq_some_iff, h.offset, Nat.add_sub_cancel_left]
    exact ⟨h.text, rfl⟩
  rw [moveTo, hsplit]
  rfl

/-! ## Results -/

/-- What reading a block comes to when its end is `found` behind the cursor. -/
def finish (cursor : Cursor) : Option Ending → BlockEnd × Cursor
  | none => (⟨[], false⟩, cursor.takeRest.2.takeRest.2)
  | some ending =>
    (⟨ending.lines, true⟩,
      { cursor with
        here := cursor.here.after ending.read
        undo := ending.last.map fun _ ↦ cursor.here.after ending.body })

theorem closeBlock_eq_finish (cursor : Cursor) (block : OpenBlock) :
    cursor.closeBlock block = cursor.finish (block.ending? cursor.rest) := by
  rw [closeBlock]
  cases block.ending? cursor.rest <;> rfl

theorem run_giveUp_of_nil (h : cursor.rest = []) : Id.run cursor.giveUp = cursor.finish none := by
  have hread : cursor.takeRest.2 = cursor.read [] := by rw [takeRest, h]
  have hrest : (cursor.read []).rest = [] := rest_read h
  have hstep : Id.run (cursor.reading takeRest) = cursor.takeRest := run_reading rfl
  rw [giveUp, Id.run_bind, hstep, finish, hread, takeRest, hrest, read, read]
  dsimp only [Id.run_pure]
  rw [Place.after_nil, Place.after_nil]

end Cursor

theorem EndsWithin.gaveUp {σ : Type} {pass : σ → Id (Pass σ (BlockEnd × Cursor))} {state : σ}
    {cursor : Cursor} {bound : Nat} (hrest : cursor.rest = [])
    (h : pass state = do return .done (← cursor.giveUp)) :
    EndsWithin pass bound state (cursor.finish none) := by
  apply EndsWithin.done
  rw [h, Id.run_bind, Cursor.run_giveUp_of_nil hrest, Id.run_pure]

/-- An ending with more text in front of it. -/
def Ending.behind (text : Text) (ending : Ending) : Ending :=
  { ending with body := text ++ ending.body }

theorem Ending.read_behind (text : Text) (ending : Ending) :
    (ending.behind text).read = text ++ ending.read :=
  List.append_assoc _ _ _

namespace Cursor

variable {cursor : Cursor} {text rest : Text}

/-- What comes of a block from further on, as it is seen from here. -/
theorem finish_read (h : cursor.rest = text ++ rest) (found : Option Ending) :
    (cursor.read text).finish found = cursor.finish (found.map (Ending.behind text)) := by
  cases found with
  | none =>
    have hall : (cursor.read text).takeRest.2
        = { cursor.takeRest.2 with undo := some (cursor.here.after text) } := by
      rw [takeRest, takeRest, rest_read h, h]
      dsimp only [read]
      rw [Place.after_append]
    rw [finish, hall]
    rfl
  | some ending =>
    rw [Option.map_some, finish, finish, Ending.read_behind, Place.after_append]
    dsimp only [read, Ending.behind]
    rw [Place.after_append]

theorem finish_last (cursor : Cursor) (lines : List Text) (last : Text) :
    cursor.finish (some ⟨lines, [], some last⟩) = (⟨lines, true⟩, cursor.read last) := by
  rw [finish, read]
  dsimp only [Ending.read, Option.getD_some, Option.map_some]
  rw [List.nil_append, Place.after_nil]

theorem finish_returned (cursor : Cursor) (lines : List Text) (body : Text) :
    cursor.finish (some ⟨lines, body, none⟩)
      = (⟨lines, true⟩, cursor.returnTo (cursor.here.after body)) := by
  rw [finish, returnTo]
  dsimp only [Ending.read, Option.getD_none, Option.map_none]
  rw [List.append_nil]

theorem finish_body (h : cursor.rest = text ++ rest) (lines : List Text) (last : Text) :
    cursor.finish (some ⟨lines, text, some last⟩)
      = (⟨lines, true⟩, (cursor.read text).read last) := by
  rw [← finish_last, finish_read h]
  dsimp only [Option.map_some, Ending.behind]
  rw [List.append_nil]

end Cursor

end CommentBlocks
